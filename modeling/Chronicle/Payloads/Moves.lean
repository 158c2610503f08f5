import Chronicle.Library.Stages
import Chronicle.Payloads.Store
import Mathlib.Logic.Relation

/-!
# What an operation of the store does

Each operation of a client is a sequence of moves, each of which changes one thing, and then one of
moves of a trim. A trim changes neither what the clients hold nor which entries live.
-/

namespace Chronicle.Payloads

open Relation

variable {V H : Type} {platform : Platform V H} {w w' : World V H}

/-- Only numbers that account for nothing differ: the budget, what a pass left behind, and the
counts of what happened. -/
structure SameBooks (state state' : StoreState V) : Prop where
  entries : state'.entries = state.entries
  byAddress : state'.byAddress = state.byAddress
  residentBytes : state'.residentBytes = state.residentBytes
  sharedRows : state'.sharedRows = state.sharedRows
  dropQueue : state'.dropQueue = state.dropQueue

/-- The books stay as they are, or the dropped values are taken off them. -/
inductive Settle : World V H → World V H → Prop where
  | quiet {w : World V H} {state : StoreState V} (hbooks : SameBooks w.state state) :
      Settle w { w with state }
  | drain {w w' : World V H} (hdrain : w.drain = some w') : Settle w w'

/-- The bytes that the digest stands for are at the backend, now or since an earlier eviction. -/
def World.Stored (platform : Platform V H) (w : World V H) (entry : Entry V H)
    (value : Allocation V) (digest : H) : Prop :=
  entry.integrity = some digest ∨ entry.integrity = none ∧ ∃ bytes,
    entry.codec.encode value.value = .ok bytes ∧ w.stored entry.id = some bytes ∧
      digest = platform.hash bytes

/-- The same world with another sum of resident bytes. -/
def World.withResident (w : World V H) (residentBytes : Nat) : World V H :=
  { w with state := { w.state with residentBytes } }

/-- What a trim does, one thing at a time. -/
inductive Trim (platform : Platform V H) : World V H → World V H → Prop where
  | settle {w w' : World V H} (hsettle : Settle w w') : Trim platform w w'
  | prune (w : World V H) : Trim platform w w.prune
  | put {w : World V H} {entry : Entry V H} (left : Option (List UInt8)) (hlive : entry ∈ w.live)
      (hnone : entry.integrity = none) :
      Trim platform w { w with stored := Function.update w.stored entry.id left }
  | unload {w w' : World V H} {entry : Entry V H} {value : Allocation V} {digest : H}
      {released : Nat} (hlive : entry ∈ w.live) (hresident : entry.resident = some value)
      (hcount : w.strongCount value.address = 1) (hstored : w.Stored platform entry value digest)
      (hunload : w.unload { entry with integrity := some digest } = some (w', released)) :
      Trim platform w (w'.withResident (w.state.residentBytes - released))

/-- What a client does, one thing at a time. -/
inductive Move [DecidableEq H] (platform : Platform V H) : World V H → World V H → Prop where
  | settle {w w' : World V H} (hsettle : Settle w w') : Move platform w w'
  | allocate {w : World V H} {value : Allocation V} (hfree : w.Free value.address value.rows) :
      Move platform w { w with shared := w.shared ++ [value] }
  | share {w : World V H} {value : Allocation V}
      (hvalue : value ∈ w.leases.map PayloadLease.value ∨ value ∈ w.shared) :
      Move platform w { w with shared := w.shared ++ [value] }
  | releaseShared (w : World V H) (shared : Nat) :
      Move platform w { w with shared := w.shared.eraseIdx shared }
  | publish {w : World V H} {value : Allocation V} {shared : Nat}
      (hvalue : w.shared[shared]? = some value) (residentBytes : Nat) (codec : Codec V) :
      Move platform w
        (World.register { w with shared := w.shared.eraseIdx shared } value residentBytes codec)
  | cloneHandle {w : World V H} {handle : PayloadHandle V} (hhandle : handle ∈ w.handles) :
      Move platform w { w with handles := w.handles ++ [handle] }
  | dropHandle {w : World V H} {handle : PayloadHandle V} {position : Nat}
      (hhandle : w.handles[position]? = some handle) :
      Move platform w
        (World.releaseEntry { w with handles := w.handles.eraseIdx position } handle.entry)
  | dropLease {w : World V H} {lease : PayloadLease V} {position : Nat}
      (hlease : w.leases[position]? = some lease) :
      Move platform w
        (World.releaseEntry { w with leases := w.leases.eraseIdx position } lease.entry)
  | reload {w : World V H} {entry : Entry V H} {value : Allocation V}
      {answer : Except String (List UInt8)} (hlive : entry ∈ w.live)
      (hspilled : entry.resident = none) (hvalue : entry.reloaded platform answer = .ok value.value)
      (hfree : w.Free value.address value.rows) : Move platform w (w.reload entry value)
  | lend {w : World V H} {entry : Entry V H} {value : Allocation V} (hlive : entry ∈ w.live)
      (hresident : entry.resident = some value) : Move platform w (w.lend entry value)
  | markCold {w : World V H} {entry : Entry V H} (hlive : entry ∈ w.live) :
      Move platform w (w.setEntry { entry with lastUsed := 0 })

/-! ## The parts of an operation -/

theorem mem_live_of_entry {id : Nat} {entry : Entry V H} (h : w.entry? id = some entry) :
    entry ∈ w.live ∧ entry.id = id :=
  ⟨List.mem_of_find?_eq_some h, by simpa using List.find?_some h⟩

theorem drain_eq_some (h : w.drain = some w') : ∃ state, drainDroppedResidents w.state = some state ∧
    w' = { w with state } := by
  obtain ⟨state, hstate, hw'⟩ := Option.bind_eq_some_iff.mp h
  exact ⟨state, hstate, (Option.some.inj hw').symm⟩

theorem Settle.stalledAt (w : World V H) (stalledAt : Option Nat) :
    Settle w { w with state := { w.state with stalledAt } } :=
  .quiet ⟨rfl, rfl, rfl, rfl, rfl⟩

theorem settle_latch (w : World V H) (outcome : Except String Unit) : Settle w (w.latch outcome) := by
  cases outcome with
  | ok => exact Settle.quiet (w := w) (SameBooks.mk rfl rfl rfl rfl rfl)
  | error error => exact .quiet ⟨rfl, rfl, rfl, rfl, rfl⟩

theorem trims_pruneDoubled (w : World V H) : ReflTransGen (Trim platform) w w.pruneDoubled := by
  unfold World.pruneDoubled
  split
  · exact .tail (.single (.prune w)) (.settle (.quiet ⟨rfl, rfl, rfl, rfl, rfl⟩))
  · exact .refl

theorem persist_ok {puts : Nat → Put} {entry entry' : Entry V H} {value : Allocation V}
    (hlive : entry ∈ w.live)
    (h : w.persist platform puts entry value.value = (w', .ok entry')) :
    ReflTransGen (Trim platform) w w' ∧ w'.live = w.live ∧ w'.state = w.state ∧
      (∀ address, w'.strongCount address = w.strongCount address) ∧
      ∃ digest, entry' = { entry with integrity := some digest } ∧
        w'.Stored platform entry value digest := by
  unfold World.persist at h
  split at h
  · next digest hdigest =>
      cases h
      refine ⟨.refl, rfl, rfl, fun _ => rfl, digest, ?_, .inl hdigest⟩
      rw [← hdigest]
  · next hnone =>
      split at h
      · cases h
      · next bytes hbytes =>
          split at h
          · cases h
          · cases h
            refine ⟨.single (.put (some bytes) hlive hnone), rfl, rfl, fun _ => rfl,
              platform.hash bytes, rfl, .inr ⟨hnone, bytes, hbytes, ?_, rfl⟩⟩
            exact Function.update_self ..

theorem persist_error {puts : Nat → Put} {entry : Entry V H} {value : V} {error : String}
    (hlive : entry ∈ w.live) (h : w.persist platform puts entry value = (w', .error error)) :
    ReflTransGen (Trim platform) w w' ∧ w'.state = w.state := by
  unfold World.persist at h
  split at h
  · cases h
  · next hnone =>
      split at h
      · cases h
        exact ⟨.refl, rfl⟩
      · split at h
        · cases h
          exact ⟨.single (.put _ hlive hnone), rfl⟩
        · cases h

variable (platform) (w) in
theorem persist_withResident (puts : Nat → Put) (entry : Entry V H) (value : V)
    (residentBytes : Nat) :
    (w.withResident residentBytes).persist platform puts entry value =
      ((w.persist platform puts entry value).1.withResident residentBytes,
        (w.persist platform puts entry value).2) := by
  unfold World.persist
  split
  · rfl
  · split
    · rfl
    · split <;> rfl

theorem release_residentBytes (state : StoreState V) (bytes residentBytes : Nat)
    (footprint : Option RowTableFootprint) :
    release { state with residentBytes } bytes footprint =
      (release state bytes footprint).map fun released =>
        ({ released.1 with residentBytes }, released.2) := by
  cases footprint with
  | none => rfl
  | some footprint =>
      simp only [release, removeRowFootprint]
      cases Library.SharedCharges.removeParts sharedRowMapBytes state.sharedRows
          footprint.rows <;> rfl

theorem unload_withResident (entry : Entry V H) (residentBytes : Nat) :
    (w.withResident residentBytes).unload entry =
      (w.unload entry).map fun unloaded =>
        (unloaded.1.withResident residentBytes, unloaded.2) := by
  unfold World.unload
  have hrelease := release_residentBytes w.state entry.bytes residentBytes entry.rowFootprint
  rw [World.withResident]
  dsimp only
  rw [hrelease]
  cases release w.state entry.bytes entry.rowFootprint with
  | none => rfl
  | some released => rfl

/-- The walk of an eviction, with the resident bytes as the walk has them. -/
theorem trims_evict {all : Bool} {puts : Nat → Put} {ids : List Nat} {resident resident' : Nat}
    {outcome : Except String Unit}
    (h : w.evict platform all puts ids resident = some (w', resident', outcome)) :
    ReflTransGen (Trim platform) (w.withResident resident) (w'.withResident resident') := by
  induction ids generalizing w resident with
  | nil =>
      cases h
      exact .refl
  | cons id later ih =>
      rw [World.evict] at h
      split at h
      · cases h
        exact .refl
      · split at h
        · exact ih h
        · next entry hentry =>
            have hlive := (mem_live_of_entry hentry).1
            split at h
            · exact ih h
            · next value hresident =>
                split at h
                · exact ih h
                · next hcount =>
                    have hcount : w.strongCount value.address = 1 := by
                      by_contra hne
                      exact hcount hne
                    -- a failed write ends the walk with the entry as it was
                    split at h
                    · next w₁ error hpersist =>
                        have hrun := persist_withResident platform w puts entry value.value
                          resident
                        rw [hpersist] at hrun
                        have htrims := (persist_error (w := w.withResident resident) hlive hrun).1
                        cases h
                        exact htrims
                    · next w₁ stored hpersist =>
                        obtain ⟨⟨w₂, released⟩, hunload, hlater⟩ := Option.bind_eq_some_iff.mp h
                        have hrun := persist_withResident platform w puts entry value.value
                          resident
                        rw [hpersist] at hrun
                        obtain ⟨htrims, hlives, hstate, hcounts, digest, rfl, hstored⟩ :=
                          persist_ok (w := w.withResident resident) hlive hrun
                        -- a written entry lets go of its value and the walk goes on
                        have hmove := unload_withResident (w := w₁)
                          { entry with integrity := some digest } resident
                        rw [hunload] at hmove
                        have hstep : Trim platform (w₁.withResident resident) _ :=
                          .unload (hlives ▸ hlive) hresident
                            ((hcounts value.address).trans hcount) hstored hmove
                        have hbytes : (w₁.withResident resident).state.residentBytes = resident := rfl
                        rw [hbytes] at hstep
                        have hrest := ih (w := w₂) hlater
                        exact htrims.trans (.head hstep hrest)

theorem trims_trimLocked {all : Bool} {puts : Nat → Put} {outcome : Except String Unit}
    (h : w.trimLocked platform all puts = some (w', outcome)) :
    ReflTransGen (Trim platform) w w' := by
  obtain ⟨drained, hdrain, h⟩ := Option.bind_eq_some_iff.mp h
  have hstart : ReflTransGen (Trim platform) w drained.pruneDoubled :=
    .head (.settle (.drain hdrain)) (trims_pruneDoubled drained)
  dsimp only at h
  split at h
  · cases h
    exact hstart
  · split at h
    · cases h
      exact hstart
    · obtain ⟨⟨evicted, resident, outcome'⟩, hevict, h⟩ := Option.bind_eq_some_iff.mp h
      cases h
      have hprune : ReflTransGen (Trim platform) w drained.pruneDoubled.prune :=
        hstart.tail (.prune _)
      refine (hprune.trans (trims_evict hevict)).tail ?_
      exact .settle (.quiet (w := evicted.withResident resident) ⟨rfl, rfl, rfl, rfl, rfl⟩)

theorem trims_trimOnDrop {puts : Nat → Put} (h : w.trimOnDrop platform puts = some w') :
    ReflTransGen (Trim platform) w w' := by
  obtain ⟨⟨trimmed, outcome⟩, htrim, h⟩ := Option.bind_eq_some_iff.mp h
  cases h
  exact (trims_trimLocked htrim).tail (.settle (settle_latch trimmed outcome))

/-! ## Charges leave the index alone -/

/-- The entries, their addresses and the values that wait to be freed are the same. -/
structure SameIndex (state state' : StoreState V) : Prop where
  entries : state'.entries = state.entries
  byAddress : state'.byAddress = state.byAddress
  dropQueue : state'.dropQueue = state.dropQueue

theorem SameIndex.trans {state state' state'' : StoreState V} (h : SameIndex state state')
    (h' : SameIndex state' state'') : SameIndex state state'' :=
  ⟨h'.entries.trans h.entries, h'.byAddress.trans h.byAddress, h'.dropQueue.trans h.dropQueue⟩

theorem charge_sameIndex (state : StoreState V) (bytes : Nat)
    (footprint : Option RowTableFootprint) : SameIndex state (charge state bytes footprint).1 := by
  cases footprint with
  | none => exact ⟨rfl, rfl, rfl⟩
  | some footprint => exact ⟨rfl, rfl, rfl⟩

theorem release_sameIndex {state state' : StoreState V} {bytes released : Nat}
    {footprint : Option RowTableFootprint}
    (h : release state bytes footprint = some (state', released)) : SameIndex state state' := by
  cases footprint with
  | none =>
      cases h
      exact ⟨rfl, rfl, rfl⟩
  | some footprint =>
      obtain ⟨removed, -, h⟩ := Option.bind_eq_some_iff.mp h
      cases h
      exact ⟨rfl, rfl, rfl⟩

theorem releaseDropped_sameIndex {state state' : StoreState V} {dropped : DroppedResident V}
    (h : releaseDropped state dropped = some state') : SameIndex state state' := by
  obtain ⟨⟨released, bytes⟩, hrelease, h⟩ := Option.bind_eq_some_iff.mp h
  cases h
  exact (release_sameIndex hrelease).trans ⟨rfl, rfl, rfl⟩

theorem foldlM_releaseDropped_sameIndex {queue : List (DroppedResident V)}
    {state state' : StoreState V} (h : queue.foldlM releaseDropped state = some state') :
    SameIndex state state' := by
  induction queue generalizing state with
  | nil =>
      cases h
      exact ⟨rfl, rfl, rfl⟩
  | cons dropped queue ih =>
      rw [List.foldlM_cons] at h
      obtain ⟨next, hnext, h⟩ := Option.bind_eq_some_iff.mp h
      exact (releaseDropped_sameIndex hnext).trans (ih h)

/-- A drain empties the queue and leaves the index alone. -/
theorem drainDroppedResidents_index {state state' : StoreState V}
    (h : drainDroppedResidents state = some state') :
    state'.entries = state.entries ∧ state'.byAddress = state.byAddress ∧
      state'.dropQueue = [] := by
  have hindex := foldlM_releaseDropped_sameIndex h
  exact ⟨hindex.entries, hindex.byAddress, hindex.dropQueue⟩

/-! ## Operations as moves -/

/-- Whoever refers to an allocation. -/
theorem mem_allocations {value : Allocation V} : value ∈ w.allocations ↔
    (∃ entry ∈ w.live, entry.resident = some value) ∨
      (∃ dropped ∈ w.state.dropQueue, dropped.resident = some value) ∨
      (∃ lease ∈ w.leases, lease.value = value) ∨ value ∈ w.shared := by
  simp only [World.allocations, List.mem_append, List.mem_filterMap, List.mem_map, or_assoc]

/-- With fewer references an address stays free. -/
theorem World.Free.mono {address : Nat} {rows : List (Nat × Nat)} (h : w.Free address rows)
    (hfewer : ∀ value ∈ w'.allocations, value ∈ w.allocations) : w'.Free address rows := by
  obtain ⟨haddress, hrows⟩ := h
  refine ⟨fun value hvalue => haddress value (hfewer value hvalue), fun x hx y hy => hrows x hx y ?_⟩
  rcases List.mem_append.mp hy with hy | hy
  · exact List.mem_append_left _ hy
  · obtain ⟨value, hvalue, hrow⟩ := List.mem_flatMap.mp hy
    exact List.mem_append_right _ (List.mem_flatMap.mpr ⟨value, hfewer value hvalue, hrow⟩)

theorem allocations_drain (h : w.drain = some w') :
    ∀ value ∈ w'.allocations, value ∈ w.allocations := by
  obtain ⟨state, hstate, rfl⟩ := drain_eq_some h
  obtain ⟨-, -, hqueue⟩ := drainDroppedResidents_index hstate
  intro value hvalue
  rw [mem_allocations] at hvalue ⊢
  rcases hvalue with hlive | ⟨dropped, hdropped, -⟩ | hclient
  · exact .inl hlive
  · have hnone : dropped ∈ ([] : List (DroppedResident V)) := hqueue ▸ hdropped
    exact absurd hnone List.not_mem_nil
  · exact .inr (.inr hclient)

section Step

variable [DecidableEq H]

theorem moves_lease {handle : PayloadHandle V} {answer : Except String (List UInt8)}
    {address : Nat} {footprint : Option RowTableFootprint}
    {outcome : Except String (PayloadLease V)}
    (hfree : w.Free address ((footprint.map RowTableFootprint.rows).getD []))
    (h : w.lease platform handle answer address footprint = some (w', outcome)) :
    ReflTransGen (Move platform) w w' := by
  unfold World.lease at h
  split at h
  · cases h
    exact .single (.settle (.quiet ⟨rfl, rfl, rfl, rfl, rfl⟩))
  · obtain ⟨entry, hentry, h⟩ := Option.bind_eq_some_iff.mp h
    have hlive := (mem_live_of_entry hentry).1
    split at h
    · next value hresident =>
        cases h
        exact .single (.lend hlive hresident)
    · next hspilled =>
        split at h
        · cases h
          exact .single (.settle (.quiet ⟨rfl, rfl, rfl, rfl, rfl⟩))
        · next value hvalue =>
            obtain ⟨drained, hdrain, h⟩ := Option.bind_eq_some_iff.mp h
            cases h
            have hlives : drained.live = w.live := by
              obtain ⟨state, -, rfl⟩ := drain_eq_some hdrain
              rfl
            have hreload : Move platform drained (drained.reload entry ⟨address, value, footprint⟩) :=
              .reload (hlives ▸ hlive) hspilled hvalue (hfree.mono (allocations_drain hdrain))
            refine .head (.settle (.drain hdrain)) (.head hreload (.single (.lend ?_ rfl)))
            rw [World.reload, World.setEntry]
            exact List.mem_map.mpr ⟨entry, hlives ▸ hlive, if_pos rfl⟩

theorem moves_leaseIfResident {handle : PayloadHandle V}
    {outcome : Except String (Option (PayloadLease V))}
    (h : w.leaseIfResident handle = some (w', outcome)) :
    ReflTransGen (Move platform) w w' := by
  unfold World.leaseIfResident at h
  split at h
  · cases h
    exact .single (.settle (.quiet ⟨rfl, rfl, rfl, rfl, rfl⟩))
  · obtain ⟨entry, hentry, h⟩ := Option.bind_eq_some_iff.mp h
    split at h
    · next value hresident =>
        cases h
        exact .single (.lend (mem_live_of_entry hentry).1 hresident)
    · cases h
      exact .refl

omit [DecidableEq H] in
theorem drain_shared (w : World V H) (shared : List (Allocation V)) :
    World.drain { w with shared } = w.drain.map fun drained => { drained with shared } := by
  unfold World.drain
  cases drainDroppedResidents w.state <;> rfl

/-- An operation is what the client does and then what a trim does. -/
theorem moves_step {operation : Operation V} (hpossible : w.Possible operation)
    (h : w.step platform operation = some w') :
    ∃ middle, ReflTransGen (Move platform) w middle ∧ ReflTransGen (Trim platform) middle w' := by
  cases operation with
  | allocate value =>
      cases h
      exact ⟨_, .single (.allocate hpossible), .refl⟩
  | share lease =>
      obtain ⟨held, hheld, h⟩ := Option.bind_eq_some_iff.mp h
      cases h
      exact ⟨_, .single (.share (.inl (List.mem_map_of_mem (List.mem_of_getElem? hheld)))), .refl⟩
  | cloneShared shared =>
      obtain ⟨value, hvalue, h⟩ := Option.bind_eq_some_iff.mp h
      cases h
      exact ⟨_, .single (.share (.inr (List.mem_of_getElem? hvalue))), .refl⟩
  | releaseShared shared =>
      obtain ⟨value, -, h⟩ := Option.bind_eq_some_iff.mp h
      cases h
      exact ⟨_, .single (.releaseShared w shared), .refl⟩
  | publish shared residentBytes codec puts =>
      obtain ⟨value, hvalue, h⟩ := Option.bind_eq_some_iff.mp h
      obtain ⟨moved, hmoved, h⟩ := Option.bind_eq_some_iff.mp h
      rw [drain_shared] at hmoved
      obtain ⟨drained, hdrain, rfl⟩ := Option.map_eq_some_iff.mp hmoved
      have hshared : drained.shared = w.shared := by
        obtain ⟨state, -, rfl⟩ := drain_eq_some hdrain
        rfl
      have hpublish : Move platform drained _ :=
        .publish (hshared ▸ hvalue) residentBytes codec
      rw [hshared] at hpublish
      exact ⟨_, .head (.settle (.drain hdrain)) (.single hpublish), trims_trimOnDrop h⟩
  | cloneHandle handle =>
      obtain ⟨held, hheld, h⟩ := Option.bind_eq_some_iff.mp h
      cases h
      exact ⟨_, .single (.cloneHandle (List.mem_of_getElem? hheld)), .refl⟩
  | dropHandle handle =>
      obtain ⟨held, hheld, h⟩ := Option.bind_eq_some_iff.mp h
      cases h
      exact ⟨_, .single (.dropHandle hheld), .refl⟩
  | lease handle answer address footprint =>
      obtain ⟨held, -, h⟩ := Option.bind_eq_some_iff.mp h
      obtain ⟨⟨leased, outcome⟩, hlease, h⟩ := Option.bind_eq_some_iff.mp h
      cases h
      exact ⟨_, moves_lease hpossible hlease, .refl⟩
  | leaseIfResident handle =>
      obtain ⟨held, -, h⟩ := Option.bind_eq_some_iff.mp h
      obtain ⟨⟨leased, outcome⟩, hlease, h⟩ := Option.bind_eq_some_iff.mp h
      cases h
      exact ⟨_, moves_leaseIfResident hlease, .refl⟩
  | dropLease lease puts =>
      obtain ⟨held, hheld, h⟩ := Option.bind_eq_some_iff.mp h
      exact ⟨_, .head (.dropLease hheld) (.single (.settle (.stalledAt _ none))),
        trims_trimOnDrop h⟩
  | setBudgetBytes bytes puts =>
      obtain ⟨⟨trimmed, outcome⟩, htrim, h⟩ := Option.bind_eq_some_iff.mp h
      cases h
      refine ⟨_, ?_, trims_trimLocked htrim⟩
      exact .single (.settle (.quiet ⟨rfl, rfl, rfl, rfl, rfl⟩))
  | enforceBudget puts =>
      obtain ⟨⟨trimmed, outcome⟩, htrim, h⟩ := Option.bind_eq_some_iff.mp h
      cases h
      refine ⟨_, ?_, trims_trimLocked htrim⟩
      exact .single (.settle (.quiet ⟨rfl, rfl, rfl, rfl, rfl⟩))
  | evictUnpinned puts =>
      obtain ⟨⟨trimmed, outcome⟩, htrim, h⟩ := Option.bind_eq_some_iff.mp h
      cases h
      exact ⟨w, .refl, (trims_trimLocked htrim).tail (.settle (settle_latch trimmed outcome))⟩
  | markCold handle =>
      obtain ⟨held, -, h⟩ := Option.bind_eq_some_iff.mp h
      obtain ⟨entry, hentry, h⟩ := Option.bind_eq_some_iff.mp h
      cases h
      exact ⟨_, .single (.markCold (mem_live_of_entry hentry).1), .refl⟩
  | stats => exact ⟨_, .single (.settle (.drain h)), .refl⟩

/-- What the moves and trims keep holds in every world that is reached. -/
theorem Reachable.invariant {P : World V H → Prop} (hnew : ∀ budget, P { state := { budget } })
    (hmove : ∀ w w', P w → Move platform w w' → P w')
    (htrim : ∀ w w', P w → Trim platform w w' → P w') (h : Reachable platform w) : P w := by
  have hmoves : ∀ {w w'}, ReflTransGen (Move platform) w w' → P w → P w' := by
    intro w w' hrun hw
    induction hrun with
    | refl => exact hw
    | tail _ hlast ih => exact hmove _ _ ih hlast
  have htrims : ∀ {w w'}, ReflTransGen (Trim platform) w w' → P w → P w' := by
    intro w w' hrun hw
    induction hrun with
    | refl => exact hw
    | tail _ hlast ih => exact htrim _ _ ih hlast
  induction h with
  | new budget => exact hnew budget
  | step _ hpossible hstep ih =>
      obtain ⟨middle, hfirst, hsecond⟩ := moves_step hpossible hstep
      exact htrims hsecond (hmoves hfirst ih)

end Step

end Chronicle.Payloads
