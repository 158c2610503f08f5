import Chronicle.Library.SharedCharges
import Mathlib.Data.List.Sort

/-!
# The payload store

A published payload stays in memory until the budget is exceeded. The store then encodes the
payloads used longest ago, puts their bytes at a backend and drops the values; a lease brings a value
back. Byte counts are sizes of memory that is held at one time, so they are natural numbers.

The world holds the store and what its clients hold: handles, leases and shared allocations. What
the backend answers and where the allocator places a value are given with each operation.
-/

namespace Chronicle.Payloads

open Chronicle.Library.SharedCharges

/-- How a payload type is written and read back. -/
structure Codec (V : Type) where
  encode : V → Except String (List UInt8)
  decode : List UInt8 → Except String V
  decode_encode : ∀ value bytes, encode value = .ok bytes → decode bytes = .ok value

/-- The bytes of a row table's own, and the address and bytes of each of its rows. -/
structure RowTableFootprint where
  tableBytes : Nat
  rows : List (Nat × Nat)
deriving DecidableEq, Repr

/-- A value behind an `Arc`; a row table has a footprint. -/
structure Allocation (V : Type) where
  address : Nat
  value : V
  footprint : Option RowTableFootprint
deriving DecidableEq, Repr

structure Entry (V H : Type) where
  id : Nat
  address : Nat
  lastUsed : Nat
  bytes : Nat
  rowFootprint : Option RowTableFootprint
  resident : Option (Allocation V)
  codec : Codec V
  integrity : Option H

structure DroppedResident (V : Type) where
  bytes : Nat
  rowFootprint : Option RowTableFootprint
  resident : Option (Allocation V)

/-- `PRUNE_FLOOR` -/
def pruneFloor : Nat := 1024

/-- `SHARED_ROW_MAP_BYTES` -/
def sharedRowMapBytes : Nat := 64

/-- The state behind the store's lock; entries are named by their identities. -/
structure StoreState (V : Type) where
  budget : Nat
  entries : List Nat := []
  byAddress : Nat → Option Nat := fun _ => none
  residentBytes : Nat := 0
  sharedRows : Counts Nat := fun _ => none
  dropQueue : List (DroppedResident V) := []
  stalledAt : Option Nat := none
  spilledCount : Nat := 0
  reloadCount : Nat := 0
  dedupeCount : Nat := 0
  failureCount : Nat := 0
  pruneAt : Nat := pruneFloor
  error : Option String := none

/-- A handle, and the value that its client published through it. -/
structure PayloadHandle (V : Type) where
  entry : Nat
  published : V

structure PayloadLease (V : Type) where
  entry : Nat
  value : Allocation V

/-- The store, the entries that a handle or a lease holds, the bytes at the backend, and what the
clients hold. -/
structure World (V H : Type) where
  state : StoreState V
  live : List (Entry V H) := []
  stored : Nat → Option (List UInt8) := fun _ => none
  handles : List (PayloadHandle V) := []
  leases : List (PayloadLease V) := []
  shared : List (Allocation V) := []
  nextPayloadId : Nat := 0
  nextPayloadTouch : Nat := 1

/-- The hash of stored bytes, and the order in which an eviction walks the entries; entries of one
last use may come in any order. -/
structure Platform (V H : Type) where
  hash : List UInt8 → H
  byLastUse : List (Entry V H) → List (Entry V H)
  perm : ∀ entries, (byLastUse entries).Perm entries
  sorted : ∀ entries, (byLastUse entries).Pairwise fun a b => a.lastUsed ≤ b.lastUsed

/-- The backend's answer to a put; a failed one may leave other bytes behind. -/
inductive Put where
  | done
  | failed (message : String) (left : Option (List UInt8))

variable {V H : Type} [DecidableEq H]

def Allocation.rows (allocation : Allocation V) : List (Nat × Nat) :=
  (allocation.footprint.map RowTableFootprint.rows).getD []

/-- Every reference to an allocation: from an entry, the drop queue, a lease or a client. -/
def World.allocations (w : World V H) : List (Allocation V) :=
  w.live.filterMap Entry.resident ++ w.state.dropQueue.filterMap DroppedResident.resident ++
    w.leases.map PayloadLease.value ++ w.shared

/-- `Arc::strong_count` -/
def World.strongCount (w : World V H) (address : Nat) : Nat :=
  (w.allocations.filter fun allocation => allocation.address = address).length

/-- `Weak::upgrade` -/
def World.entry? (w : World V H) (id : Nat) : Option (Entry V H) :=
  w.live.find? fun entry => entry.id = id

def World.setEntry (w : World V H) (entry : Entry V H) : World V H :=
  { w with live := w.live.map fun other => if other.id = entry.id then entry else other }

/-! ## Charges -/

def addRowFootprint (state : StoreState V) (footprint : RowTableFootprint) : StoreState V × Nat :=
  let added := addParts sharedRowMapBytes state.sharedRows footprint.rows
  ({ state with sharedRows := added.1 }, footprint.tableBytes + added.2)

/-- Nothing is returned where the source panics on a row that is not counted. -/
def removeRowFootprint (state : StoreState V) (footprint : RowTableFootprint) :
    Option (StoreState V × Nat) := do
  let removed ← removeParts sharedRowMapBytes state.sharedRows footprint.rows
  return ({ state with sharedRows := removed.1 }, footprint.tableBytes + removed.2)

/-- What is charged for a payload that becomes resident. -/
def charge (state : StoreState V) (bytes : Nat) : Option RowTableFootprint → StoreState V × Nat
  | some footprint => addRowFootprint state footprint
  | none => (state, bytes)

/-- What is given back for a payload that was resident. -/
def release (state : StoreState V) (bytes : Nat) :
    Option RowTableFootprint → Option (StoreState V × Nat)
  | some footprint => removeRowFootprint state footprint
  | none => some (state, bytes)

def releaseDropped (state : StoreState V) (dropped : DroppedResident V) :
    Option (StoreState V) := do
  let (state, released) ← release state dropped.bytes dropped.rowFootprint
  return { state with residentBytes := state.residentBytes - released }

def drainDroppedResidents (state : StoreState V) : Option (StoreState V) :=
  state.dropQueue.foldlM releaseDropped
    { state with
      dropQueue := []
      stalledAt := if state.dropQueue.isEmpty then state.stalledAt else none }

def World.drain (w : World V H) : Option (World V H) := do
  let state ← drainDroppedResidents w.state
  return { w with state }

/-! ## Eviction -/

/-- Entries that nothing holds are forgotten. -/
def World.prune (w : World V H) : World V H :=
  { w with
    state := { w.state with
      entries := w.state.entries.filter fun id => (w.entry? id).isSome
      byAddress := fun address =>
        (w.state.byAddress address).filter fun id => (w.entry? id).isSome } }

def World.pruneDoubled (w : World V H) : World V H :=
  if w.state.pruneAt ≤ w.state.entries.length then
    { w.prune with
      state := { w.prune.state with
        pruneAt := max (w.prune.state.entries.length * 2) pruneFloor } }
  else w

/-- A value that an earlier eviction stored is not encoded again. -/
def World.persist (platform : Platform V H) (puts : Nat → Put) (w : World V H)
    (entry : Entry V H) (value : V) : World V H × Except String (Entry V H) :=
  match entry.integrity with
  | some _ => (w, .ok entry)
  | none =>
      match entry.codec.encode value with
      | .error error => (w, .error error)
      | .ok bytes =>
          match puts entry.id with
          | .failed message left =>
              ({ w with stored := Function.update w.stored entry.id left }, .error message)
          | .done =>
              ({ w with stored := Function.update w.stored entry.id (some bytes) },
                .ok { entry with integrity := some (platform.hash bytes) })

def World.unload (w : World V H) (entry : Entry V H) : Option (World V H × Nat) := do
  let (state, released) ← release w.state entry.bytes entry.rowFootprint
  let state := { state with
    byAddress := Function.update state.byAddress entry.address none
    spilledCount := state.spilledCount + 1 }
  return ({ w with state }.setEntry { entry with rowFootprint := none, resident := none }, released)

/-- The walk over the candidates, with the resident bytes as they stand. It passes values that are
held elsewhere and stops at the first that cannot be stored. -/
def World.evict (platform : Platform V H) (all : Bool) (puts : Nat → Put) :
    List Nat → World V H → Nat → Option (World V H × Nat × Except String Unit)
  | [], w, resident => some (w, resident, .ok ())
  | id :: later, w, resident =>
      if all = false ∧ resident ≤ w.state.budget then some (w, resident, .ok ())
      else
        match w.entry? id with
        | none => w.evict platform all puts later resident
        | some entry =>
            match entry.resident with
            | none => w.evict platform all puts later resident
            | some value =>
                if w.strongCount value.address ≠ 1 then w.evict platform all puts later resident
                else
                  match w.persist platform puts entry value.value with
                  | (w, .error error) => some (w, resident, .error error)
                  | (w, .ok entry) => do
                      let (w, released) ← w.unload entry
                      w.evict platform all puts later (resident - released)

def World.trimLocked (platform : Platform V H) (all : Bool) (puts : Nat → Put) (w : World V H) :
    Option (World V H × Except String Unit) := do
  let w ← w.drain
  let w := w.pruneDoubled
  if w.state.budget = 0 then return (w, .ok ())
  else if all = false ∧ (w.state.residentBytes ≤ w.state.budget ∨
      ∃ stalled ∈ w.state.stalledAt, w.state.residentBytes ≤ stalled) then return (w, .ok ())
  else
    let w := w.prune
    let candidates := platform.byLastUse (w.state.entries.filterMap w.entry?)
    let (w, resident, outcome) ←
      w.evict platform all puts (candidates.map Entry.id) w.state.residentBytes
    let stalledAt := if all = false ∧ w.state.budget < resident then some resident else none
    return ({ w with state := { w.state with residentBytes := resident, stalledAt } }, outcome)

/-- A failure is counted and kept for the next lease or enforcement. -/
def World.latch (w : World V H) : Except String Unit → World V H
  | .ok () => w
  | .error error =>
      { w with
        state := { w.state with
          failureCount := w.state.failureCount + 1
          error := some error } }

def World.trimOnDrop (platform : Platform V H) (puts : Nat → Put) (w : World V H) :
    Option (World V H) := do
  let (w, outcome) ← w.trimLocked platform false puts
  return w.latch outcome

/-! ## Publishing and leasing -/

/-- The entry whose resident value is the allocation at the address. -/
def World.existing (w : World V H) (address : Nat) : Option (Entry V H) :=
  ((w.state.byAddress address).bind w.entry?).filter fun entry =>
    entry.resident.any fun value => value.address = address

/-- The entry that holds the value, or a new one for it. -/
def World.register (w : World V H) (value : Allocation V) (residentBytes : Nat)
    (codec : Codec V) : World V H :=
  match w.existing value.address with
  | some entry =>
      { w with
        state := { w.state with dedupeCount := w.state.dedupeCount + 1 }
        handles := w.handles ++ [⟨entry.id, value.value⟩] }
  | none =>
      let charged := charge w.state residentBytes value.footprint
      { w with
        live := w.live ++ [{
          id := w.nextPayloadId
          address := value.address
          lastUsed := w.nextPayloadTouch
          bytes := residentBytes
          rowFootprint := value.footprint
          resident := some value
          codec := codec
          integrity := none }]
        state := { charged.1 with
          entries := charged.1.entries ++ [w.nextPayloadId]
          byAddress := Function.update charged.1.byAddress value.address (some w.nextPayloadId)
          residentBytes := charged.1.residentBytes + charged.2 }
        handles := w.handles ++ [⟨w.nextPayloadId, value.value⟩]
        nextPayloadId := w.nextPayloadId + 1
        nextPayloadTouch := w.nextPayloadTouch + 1 }

def World.publishEntry (platform : Platform V H) (puts : Nat → Put) (w : World V H)
    (value : Allocation V) (residentBytes : Nat) (codec : Codec V) : Option (World V H) := do
  let w ← w.drain
  (w.register value residentBytes codec).trimOnDrop platform puts

/-- The value that the backend's answer stands for. -/
def Entry.reloaded (platform : Platform V H) (entry : Entry V H)
    (answer : Except String (List UInt8)) : Except String V := do
  let bytes ← answer
  if some (platform.hash bytes) ≠ entry.integrity then
    throw ("payload " ++ toString entry.id ++ " integrity mismatch")
  entry.codec.decode bytes

/-- The entry with its value back in memory. -/
def Entry.refill (entry : Entry V H) (value : Allocation V) : Entry V H :=
  { entry with
    address := value.address
    rowFootprint := value.footprint
    resident := some value }

/-- The entry's own stale address is forgotten, and the value is found at its new one. -/
def World.reload (w : World V H) (entry : Entry V H) (value : Allocation V) : World V H :=
  let kept := if w.state.byAddress entry.address = some entry.id then
    Function.update w.state.byAddress entry.address none else w.state.byAddress
  let charged := charge { w.state with byAddress := kept } entry.bytes value.footprint
  World.setEntry
    { w with
      state := { charged.1 with
        byAddress := Function.update charged.1.byAddress value.address (some entry.id)
        residentBytes := charged.1.residentBytes + charged.2
        reloadCount := charged.1.reloadCount + 1 } }
    (entry.refill value)

/-- A lease of an entry whose value is in memory. -/
def World.lend (w : World V H) (entry : Entry V H) (value : Allocation V) : World V H :=
  World.setEntry
    { w with
      leases := w.leases ++ [⟨entry.id, value⟩]
      nextPayloadTouch := w.nextPayloadTouch + 1 }
    { entry with lastUsed := w.nextPayloadTouch }

/-- The latched failure is reported in place of a lease, and no longer kept. -/
def World.unlatched (w : World V H) : World V H :=
  { w with state := { w.state with error := none } }

/-- A lease of a handle. The backend's answer, and the address and footprint of a value that is
brought back, are given. -/
def World.lease (platform : Platform V H) (w : World V H) (handle : PayloadHandle V)
    (answer : Except String (List UInt8)) (address : Nat) (footprint : Option RowTableFootprint) :
    Option (World V H × Except String (PayloadLease V)) :=
  match w.state.error with
  | some error => some (w.unlatched, .error error)
  | none => do
      let entry ← w.entry? handle.entry
      match entry.resident with
      | some value => return (w.lend entry value, .ok ⟨entry.id, value⟩)
      | none =>
          match entry.reloaded platform answer with
          | .error error =>
              return ({ w with
                state := { w.state with failureCount := w.state.failureCount + 1 } }, .error error)
          | .ok value =>
              let w ← w.drain
              let allocation := ⟨address, value, footprint⟩
              return ((w.reload entry allocation).lend (entry.refill allocation) allocation,
                .ok ⟨entry.id, allocation⟩)

def World.leaseIfResident (w : World V H) (handle : PayloadHandle V) :
    Option (World V H × Except String (Option (PayloadLease V))) :=
  match w.state.error with
  | some error => some (w.unlatched, .error error)
  | none => do
      let entry ← w.entry? handle.entry
      match entry.resident with
      | some value => return (w.lend entry value, .ok (some ⟨entry.id, value⟩))
      | none => return (w, .ok none)

/-- `Entry::drop`, once no handle and no lease holds the entry. A row table stays allocated until
its rows have left the shared counts. -/
def World.releaseEntry (w : World V H) (id : Nat) : World V H :=
  if (∃ handle ∈ w.handles, handle.entry = id) ∨ (∃ lease ∈ w.leases, lease.entry = id) then w
  else
    match w.entry? id with
    | none => w
    | some entry =>
        let dropped : Option (DroppedResident V) := entry.resident.map fun value =>
          ⟨entry.bytes, entry.rowFootprint, entry.rowFootprint.map fun _ => value⟩
        { w with
          live := w.live.filter fun other => other.id ≠ id
          stored := Function.update w.stored id none
          state := { w.state with dropQueue := w.state.dropQueue ++ dropped.toList } }

/-! ## Runs -/

/-- What clients do. Handles, leases and shared allocations are named by their places. -/
inductive Operation (V : Type) where
  | allocate (value : Allocation V)
  | share (lease : Nat)
  | cloneShared (shared : Nat)
  | releaseShared (shared : Nat)
  | publish (shared residentBytes : Nat) (codec : Codec V) (puts : Nat → Put)
  | cloneHandle (handle : Nat)
  | dropHandle (handle : Nat)
  | lease (handle : Nat) (answer : Except String (List UInt8)) (address : Nat)
      (footprint : Option RowTableFootprint)
  | leaseIfResident (handle : Nat)
  | dropLease (lease : Nat) (puts : Nat → Put)
  | setBudgetBytes (bytes : Nat) (puts : Nat → Put)
  | enforceBudget (puts : Nat → Put)
  | evictUnpinned (puts : Nat → Put)
  | markCold (handle : Nat)
  | stats

/-- The world after an operation; none where a place is not occupied or the source panics. -/
def World.step (platform : Platform V H) (w : World V H) : Operation V → Option (World V H)
  | .allocate value => some { w with shared := w.shared ++ [value] }
  | .share lease => do
      let lease ← w.leases[lease]?
      return { w with shared := w.shared ++ [lease.value] }
  | .cloneShared shared => do
      let value ← w.shared[shared]?
      return { w with shared := w.shared ++ [value] }
  | .releaseShared shared => do
      let _ ← w.shared[shared]?
      return { w with shared := w.shared.eraseIdx shared }
  | .publish shared residentBytes codec puts => do
      let value ← w.shared[shared]?
      let moved := { w with shared := w.shared.eraseIdx shared }
      moved.publishEntry platform puts value residentBytes codec
  | .cloneHandle handle => do
      let handle ← w.handles[handle]?
      return { w with handles := w.handles ++ [handle] }
  | .dropHandle handle => do
      let dropped ← w.handles[handle]?
      return { w with handles := w.handles.eraseIdx handle }.releaseEntry dropped.entry
  | .lease handle answer address footprint => do
      let handle ← w.handles[handle]?
      let (w, _) ← w.lease platform handle answer address footprint
      return w
  | .leaseIfResident handle => do
      let handle ← w.handles[handle]?
      let (w, _) ← w.leaseIfResident handle
      return w
  | .dropLease lease puts => do
      let dropped ← w.leases[lease]?
      let w := { w with leases := w.leases.eraseIdx lease }.releaseEntry dropped.entry
      { w with state := { w.state with stalledAt := none } }.trimOnDrop platform puts
  | .setBudgetBytes bytes puts => do
      let w := { w with state := { w.state with budget := bytes, stalledAt := none } }
      let (w, _) ← w.trimLocked platform false puts
      return w
  | .enforceBudget puts => do
      let w := { w with state := { w.state with stalledAt := none, error := none } }
      let (w, _) ← w.trimLocked platform false puts
      return w
  | .evictUnpinned puts => do
      let (w, outcome) ← w.trimLocked platform true puts
      return w.latch outcome
  | .markCold handle => do
      let handle ← w.handles[handle]?
      let entry ← w.entry? handle.entry
      return w.setEntry { entry with lastUsed := 0 }
  | .stats => w.drain

/-- The address is free, and rows that other tables hold too have the bytes they have there. -/
def World.Free (w : World V H) (address : Nat) (rows : List (Nat × Nat)) : Prop :=
  (∀ allocation ∈ w.allocations, allocation.address ≠ address) ∧
    ∀ x ∈ rows, ∀ y ∈ rows ++ w.allocations.flatMap Allocation.rows, x.1 = y.1 → x = y

/-- What the allocator guarantees of a new allocation. -/
def World.Possible (w : World V H) : Operation V → Prop
  | .allocate value => w.Free value.address value.rows
  | .lease _ _ address footprint => w.Free address ((footprint.map RowTableFootprint.rows).getD [])
  | _ => True

/-- The worlds that a new store's operations lead to. -/
inductive Reachable (platform : Platform V H) : World V H → Prop
  | new (budget : Nat) : Reachable platform { state := { budget := budget } }
  | step {w w' : World V H} {operation : Operation V} : Reachable platform w →
      w.Possible operation → w.step platform operation = some w' → Reachable platform w'

/-- Operations one after another. -/
def World.run (platform : Platform V H) (w : World V H) (operations : List (Operation V)) :
    Option (World V H) :=
  operations.foldlM (World.step platform) w

/-- Each operation is possible where it is made. -/
def World.AllPossible (platform : Platform V H) : World V H → List (Operation V) → Prop
  | _, [] => True
  | w, operation :: later =>
      w.Possible operation ∧ ∀ w' ∈ w.step platform operation, w'.AllPossible platform later

instance (w : World V H) (address : Nat) (rows : List (Nat × Nat)) :
    Decidable (w.Free address rows) :=
  inferInstanceAs (Decidable (_ ∧ _))

instance (w : World V H) : (operation : Operation V) → Decidable (w.Possible operation)
  | .allocate value => inferInstanceAs (Decidable (w.Free value.address value.rows))
  | .lease _ _ _ _ => inferInstanceAs (Decidable (w.Free _ _))
  | .share _ | .cloneShared _ | .releaseShared _ | .publish .. | .cloneHandle _ | .dropHandle _
  | .leaseIfResident _ | .dropLease .. | .setBudgetBytes .. | .enforceBudget _ | .evictUnpinned _
  | .markCold _ | .stats => isTrue trivial

instance decidableAllPossible (platform : Platform V H) :
    ∀ (w : World V H) (operations : List (Operation V)),
      Decidable (w.AllPossible platform operations)
  | _, [] => inferInstanceAs (Decidable True)
  | w, operation :: later =>
      have : ∀ w', Decidable (World.AllPossible platform w' later) := fun w' =>
        decidableAllPossible platform w' later
      inferInstanceAs (Decidable (_ ∧ ∀ w' ∈ w.step platform operation, _))

/-- A run of possible operations reaches its world. -/
theorem Reachable.run {platform : Platform V H} {w w' : World V H} {operations : List (Operation V)}
    (h : Reachable platform w) (hpossible : w.AllPossible platform operations)
    (hrun : w.run platform operations = some w') : Reachable platform w' := by
  induction operations generalizing w with
  | nil =>
      cases hrun
      exact h
  | cons operation later ih =>
      rw [World.run, List.foldlM_cons] at hrun
      obtain ⟨next, hnext, hlater⟩ := Option.bind_eq_some_iff.mp hrun
      exact ih (.step h hpossible.1 hnext) (hpossible.2 next hnext) hlater

end Chronicle.Payloads
