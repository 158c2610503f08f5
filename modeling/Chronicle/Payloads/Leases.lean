import Chronicle.Payloads.Charges

/-!
# What a lease returns

Every living entry stands for the value that was published: the value in memory is it, or the bytes
at the backend are those of an encoding of it. A lease that brings back anything else is refused.
-/

namespace Chronicle.Payloads

open Relation Library.SharedCharges

variable {V H : Type} {platform : Platform V H} {w w' : World V H}

/-- The entry has the value in memory or its bytes at the backend. -/
structure Entry.Stands (platform : Platform V H) (stored : Nat → Option (List UInt8))
    (entry : Entry V H) (value : V) : Prop where
  resident : ∀ allocation ∈ entry.resident, allocation.value = value
  written : ∀ digest ∈ entry.integrity, ∃ bytes, entry.codec.encode value = .ok bytes ∧
    digest = platform.hash bytes ∧ stored entry.id = some bytes
  somewhere : entry.resident = none → entry.integrity ≠ none

/-- The values that the identities stand for. -/
structure World.Standing (platform : Platform V H) (w : World V H) (values : Nat → Option V) :
    Prop where
  stands : ∀ entry ∈ w.live, ∃ value, values entry.id = some value ∧
    entry.Stands platform w.stored value
  handles : ∀ handle ∈ w.handles, values handle.entry = some handle.published ∧
    ∃ entry ∈ w.live, entry.id = handle.entry
  leases : ∀ lease ∈ w.leases, ∃ entry ∈ w.live, entry.id = lease.entry

theorem World.Standing.same {values : Nat → Option V} (h : w.Standing platform values)
    (hlive : w'.live = w.live) (hstored : w'.stored = w.stored) (hhandles : w'.handles = w.handles)
    (hleases : w'.leases = w.leases) : w'.Standing platform values where
  stands := by
    rw [hlive, hstored]
    exact h.stands
  handles := by
    rw [hlive, hhandles]
    exact h.handles
  leases := by
    rw [hlive, hleases]
    exact h.leases

theorem exists_id_setEntry {entry : Entry V H} {id : Nat} (h : ∃ other ∈ w.live, other.id = id) :
    ∃ other ∈ (w.setEntry entry).live, other.id = id := by
  obtain ⟨other, hother, rfl⟩ := h
  have hid : other.id ∈ (w.setEntry entry).live.map Entry.id := by
    rw [setEntry_ids]
    exact List.mem_map_of_mem hother
  obtain ⟨found, hfound, heq⟩ := List.mem_map.mp hid
  exact ⟨found, hfound, heq⟩

/-- An entry is set to one that stands for the same value. -/
theorem World.Standing.setEntry {values : Nat → Option V} {entry changed : Entry V H}
    (h : w.Standing platform values) (hlive : entry ∈ w.live) (hid : changed.id = entry.id)
    (hstands : ∀ value, entry.Stands platform w.stored value →
      changed.Stands platform w.stored value) :
    (w.setEntry changed).Standing platform values where
  stands := by
    intro other hother
    obtain ⟨old, hold, rfl⟩ := mem_setEntry.mp hother
    split
    · obtain ⟨value, hvalue, hown⟩ := h.stands entry hlive
      exact ⟨value, hid ▸ hvalue, hstands value hown⟩
    · exact h.stands old hold
  handles := fun handle hhandle =>
    (h.handles handle hhandle).imp_right exists_id_setEntry
  leases := fun lease hlease => exists_id_setEntry (h.leases lease hlease)

/-- Only an entry that no handle and no lease holds is dropped. -/
theorem World.Standing.releaseEntry {values : Nat → Option V} (h : w.Standing platform values)
    (id : Nat) : (w.releaseEntry id).Standing platform values := by
  unfold World.releaseEntry
  split
  · exact h
  · next hfree =>
      split
      · exact h
      · have hkept : ∀ {other : Nat}, other ≠ id → (∃ entry ∈ w.live, entry.id = other) →
            ∃ entry ∈ w.live.filter (fun entry => entry.id ≠ id), entry.id = other := by
          rintro other hne ⟨entry, hentry, rfl⟩
          exact ⟨entry, List.mem_filter.mpr ⟨hentry, decide_eq_true hne⟩, rfl⟩
        exact {
          stands := by
            intro entry hentry
            have hne : entry.id ≠ id := of_decide_eq_true (List.mem_filter.mp hentry).2
            obtain ⟨value, hvalue, hstands⟩ := h.stands entry (List.mem_of_mem_filter hentry)
            refine ⟨value, hvalue, hstands.resident, ?_, hstands.somewhere⟩
            intro digest hdigest
            dsimp only
            rw [Function.update_of_ne hne]
            exact hstands.written digest hdigest
          handles := by
            intro handle hhandle
            refine (h.handles handle hhandle).imp_right (hkept ?_)
            exact fun heq => hfree (.inl ⟨handle, hhandle, heq⟩)
          leases := by
            intro lease hlease
            refine hkept ?_ (h.leases lease hlease)
            exact fun heq => hfree (.inr ⟨lease, hlease, heq⟩) }

/-- A new handle stands for the value that was published through it. -/
theorem World.Standing.register {values : Nat → Option V} {value : Allocation V}
    {residentBytes : Nat} {codec : Codec V} (h : w.Standing platform values) (hindexed : w.Indexed)
    (hown : ∀ entry ∈ w.live, ∀ own ∈ entry.resident, own.address = value.address → own = value) :
    ∃ values', (w.register value residentBytes codec).Standing platform values' := by
  unfold World.register
  split
  · next entry hentry =>
      obtain ⟨hlive, own, hresident, haddress⟩ := existing_eq_some hentry
      refine ⟨values, h.stands, ?_, h.leases⟩
      intro handle hhandle
      rcases List.mem_append.mp hhandle with hold | hnew
      · exact h.handles handle hold
      · obtain rfl := List.mem_singleton.mp hnew
        obtain ⟨published, hvalue, hstands⟩ := h.stands entry hlive
        refine ⟨?_, entry, hlive, rfl⟩
        rw [hvalue, ← hstands.resident own hresident, hown entry hlive own hresident haddress]
  · refine ⟨Function.update values w.nextPayloadId (some value.value), ?_, ?_, ?_⟩
    · intro entry hentry
      rcases List.mem_append.mp hentry with hold | hnew
      · rw [Function.update_of_ne (hindexed.fresh entry hold).ne]
        exact h.stands entry hold
      · obtain rfl := List.mem_singleton.mp hnew
        refine ⟨value.value, Function.update_self .., ?_, nofun, nofun⟩
        intro allocation hallocation
        rw [Option.some.inj hallocation]
    · intro handle hhandle
      rcases List.mem_append.mp hhandle with hold | hnew
      · obtain ⟨hvalue, entry, hentry, hid⟩ := h.handles handle hold
        refine ⟨?_, entry, List.mem_append_left _ hentry, hid⟩
        rw [Function.update_of_ne (hid ▸ (hindexed.fresh entry hentry).ne)]
        exact hvalue
      · obtain rfl := List.mem_singleton.mp hnew
        refine ⟨Function.update_self .., _, List.mem_append_right _ (List.mem_singleton_self _), rfl⟩
    · intro lease hlease
      obtain ⟨entry, hentry, hid⟩ := h.leases lease hlease
      exact ⟨entry, List.mem_append_left _ hentry, hid⟩

theorem World.Standing.settle {values : Nat → Option V} (h : w.Standing platform values)
    (hsettle : Settle w w') : w'.Standing platform values := by
  cases hsettle with
  | quiet => exact h.same rfl rfl rfl rfl
  | drain hdrain =>
      obtain ⟨state, -, rfl⟩ := drain_eq_some hdrain
      exact h.same rfl rfl rfl rfl

section Hash

variable [DecidableEq H]

/-- With hashes that do not collide, what is read back is the published value. -/
theorem reloaded_eq_ok {entry : Entry V H} {value found : V} {answer : Except String (List UInt8)}
    {stored : Nat → Option (List UInt8)} (hhash : Function.Injective platform.hash)
    (hstands : entry.Stands platform stored value)
    (h : entry.reloaded platform answer = .ok found) : found = value := by
  obtain ⟨bytes, hanswer, h⟩ := Library.Stages.bind_eq_ok.mp h
  dsimp only at h
  split at h
  · obtain ⟨result, hthrow, -⟩ := Library.Stages.bind_eq_ok.mp h
    cases hthrow
  · next hdigest =>
      obtain ⟨written, hencode, heq, -⟩ := hstands.written _ (not_ne_iff.mp hdigest).symm
      rw [hhash heq, entry.codec.decode_encode value written hencode] at h
      exact (Except.ok.inj h).symm

theorem standing_move {values : Nat → Option V} (hhash : Function.Injective platform.hash)
    (hsound : w.Sound) (h : w.Standing platform values) (hmove : Move platform w w') :
    ∃ values', w'.Standing platform values' := by
  cases hmove with
  | settle hsettle => exact ⟨values, h.settle hsettle⟩
  | allocate | share | releaseShared => exact ⟨values, h.same rfl rfl rfl rfl⟩
  | @publish value position hvalue residentBytes codec =>
      have hmoved : World.Standing platform { w with shared := w.shared.eraseIdx position } values :=
        h.same rfl rfl rfl rfl
      refine hmoved.register (hsound.indexed.mono (List.Sublist.refl _) rfl rfl) ?_
      intro entry hentry own hown haddress
      exact hsound.distinct own (mem_allocations.mpr (.inl ⟨entry, hentry, hown⟩)) value
        (mem_allocations.mpr (.inr (.inr (.inr (List.mem_of_getElem? hvalue))))) haddress
  | @cloneHandle handle hhandle =>
      refine ⟨values, h.stands, ?_, h.leases⟩
      intro other hother
      rcases List.mem_append.mp hother with hold | hnew
      · exact h.handles other hold
      · exact List.mem_singleton.mp hnew ▸ h.handles handle hhandle
  | @dropHandle handle position hhandle =>
      have hdropped : World.Standing platform { w with handles := w.handles.eraseIdx position }
          values :=
        ⟨h.stands, fun other hother => h.handles other (List.mem_of_mem_eraseIdx hother), h.leases⟩
      exact ⟨values, hdropped.releaseEntry handle.entry⟩
  | @dropLease lease position hlease =>
      have hdropped : World.Standing platform { w with leases := w.leases.eraseIdx position }
          values :=
        ⟨h.stands, h.handles, fun other hother => h.leases other (List.mem_of_mem_eraseIdx hother)⟩
      exact ⟨values, hdropped.releaseEntry lease.entry⟩
  | @reload entry value answer hlive hspilled hvalue hfree =>
      have hreloaded : World.Standing platform
          { w with state := (World.reload w entry value).state } values := h.same rfl rfl rfl rfl
      refine ⟨values, hreloaded.setEntry hlive rfl ?_⟩
      intro published hstands
      refine ⟨?_, hstands.written, nofun⟩
      -- what is read back from the file is the value that was published
      intro allocation hallocation
      cases hallocation
      exact reloaded_eq_ok hhash hstands hvalue
  | @lend entry value hlive hresident =>
      have hlent : World.Standing platform { w with
          leases := w.leases ++ [⟨entry.id, value⟩]
          nextPayloadTouch := w.nextPayloadTouch + 1 } values := by
        refine ⟨h.stands, h.handles, ?_⟩
        intro lease hlease
        rcases List.mem_append.mp hlease with hold | hnew
        · exact h.leases lease hold
        · obtain rfl := List.mem_singleton.mp hnew
          exact ⟨entry, hlive, rfl⟩
      exact ⟨values, hlent.setEntry hlive rfl fun _ hstands =>
        ⟨hstands.resident, hstands.written, hstands.somewhere⟩⟩
  | markCold hlive =>
      exact ⟨values, h.setEntry hlive rfl fun _ hstands =>
        ⟨hstands.resident, hstands.written, hstands.somewhere⟩⟩

omit [DecidableEq H] in
theorem standing_trim {values : Nat → Option V} (hsound : w.Sound)
    (h : w.Standing platform values) (htrim : Trim platform w w') :
    w'.Standing platform values := by
  cases htrim with
  | settle hsettle => exact h.settle hsettle
  | prune => exact h.same rfl rfl rfl rfl
  | @put entry left hlive hnone =>
      refine ⟨?_, h.handles, h.leases⟩
      intro other hother
      obtain ⟨value, hvalue, hstands⟩ := h.stands other hother
      refine ⟨value, hvalue, hstands.resident, ?_, hstands.somewhere⟩
      intro digest hdigest
      have hne : other.id ≠ entry.id := by
        intro hid
        rw [eq_of_ids hsound.indexed.ids hlive hother hid, hnone] at hdigest
        cases hdigest
      dsimp only
      rw [Function.update_of_ne hne]
      exact hstands.written digest hdigest
  | @unload _ entry value digest released hlive hresident hcount hstored hunload =>
      obtain ⟨state, -, rfl⟩ := unload_eq_some hunload
      have hsettled : World.Standing platform { w with
          state := { state with
            byAddress := Function.update state.byAddress entry.address none
            spilledCount := state.spilledCount + 1
            residentBytes := w.state.residentBytes - released } } values :=
        h.same rfl rfl rfl rfl
      refine hsettled.setEntry hlive rfl ?_
      intro published hstands
      refine ⟨nofun, ?_, nofun⟩
      intro digest' hdigest
      cases hdigest
      rcases hstored with hwritten | ⟨-, bytes, hencode, hbytes, heq⟩
      · exact hstands.written digest hwritten
      · rw [hstands.resident value hresident] at hencode
        exact ⟨bytes, hencode, heq, hbytes⟩

/-- In every reachable world the entries stand for what was published. -/
theorem Reachable.standing (hhash : Function.Injective platform.hash)
    (h : Reachable platform w) : w.Sound ∧ ∃ values, w.Standing platform values := by
  refine Reachable.invariant (P := fun w => w.Sound ∧ ∃ values, w.Standing platform values)
    ?_ ?_ ?_ h
  · intro budget
    refine ⟨(.new budget : Reachable platform _).sound, fun _ => none, ?_⟩
    exact {
      stands := fun _ hentry => absurd hentry List.not_mem_nil
      handles := fun _ hhandle => absurd hhandle List.not_mem_nil
      leases := fun _ hlease => absurd hlease List.not_mem_nil }
  · rintro w w' ⟨hsound, values, hstanding⟩ hmove
    exact ⟨sound_move hsound hmove, standing_move hhash hsound hstanding hmove⟩
  · rintro w w' ⟨hsound, values, hstanding⟩ htrim
    exact ⟨sound_trim hsound htrim, values, standing_trim hsound hstanding htrim⟩

/-! ## Leases -/

/-- A lease that succeeds returns the published value. -/
theorem lease_published {handle : PayloadHandle V} {answer : Except String (List UInt8)}
    {address : Nat} {footprint : Option RowTableFootprint} {lease : PayloadLease V}
    (hhash : Function.Injective platform.hash) (hreached : Reachable platform w)
    (hhandle : handle ∈ w.handles)
    (h : w.lease platform handle answer address footprint = some (w', .ok lease)) :
    lease.value.value = handle.published := by
  obtain ⟨-, values, hstanding⟩ := hreached.standing hhash
  obtain ⟨hpublished, -⟩ := hstanding.handles handle hhandle
  unfold World.lease at h
  split at h
  · cases h
  · obtain ⟨entry, hentry, h⟩ := Option.bind_eq_some_iff.mp h
    obtain ⟨hlive, hid⟩ := mem_live_of_entry hentry
    obtain ⟨value, hvalue, hstands⟩ := hstanding.stands entry hlive
    rw [hid, hpublished] at hvalue
    obtain rfl := Option.some.inj hvalue
    split at h
    · next allocation hresident =>
        cases h
        exact hstands.resident allocation hresident
    · split at h
      · cases h
      · next found hfound =>
          obtain ⟨drained, -, h⟩ := Option.bind_eq_some_iff.mp h
          cases h
          exact reloaded_eq_ok hhash hstands hfound

/-- A reload that fails leaves the entries and the handles as they are. -/
theorem lease_error {handle : PayloadHandle V} {answer : Except String (List UInt8)}
    {address : Nat} {footprint : Option RowTableFootprint} {error : String}
    (h : w.lease platform handle answer address footprint = some (w', .error error)) :
    w'.live = w.live ∧ w'.stored = w.stored ∧ w'.handles = w.handles := by
  unfold World.lease at h
  split at h
  · cases h
    exact ⟨rfl, rfl, rfl⟩
  · obtain ⟨entry, hentry, h⟩ := Option.bind_eq_some_iff.mp h
    split at h
    · cases h
    · split at h
      · cases h
        exact ⟨rfl, rfl, rfl⟩
      · obtain ⟨drained, -, h⟩ := Option.bind_eq_some_iff.mp h
        cases h

/-- With no failure latched, a held handle is leased: from memory, or with the backend's bytes. -/
theorem lease_of_stored {handle : PayloadHandle V} (hhash : Function.Injective platform.hash)
    (hreached : Reachable platform w) (hhandle : handle ∈ w.handles)
    (herror : w.state.error = none) (address : Nat) (footprint : Option RowTableFootprint)
    (answer : Except String (List UInt8))
    (hanswer : ∀ bytes, w.stored handle.entry = some bytes → answer = .ok bytes) :
    ∃ w' lease, w.lease platform handle answer address footprint = some (w', .ok lease) ∧
      lease.value.value = handle.published := by
  obtain ⟨hsound, values, hstanding⟩ := hreached.standing hhash
  obtain ⟨hpublished, entry, hlive, hid⟩ := hstanding.handles handle hhandle
  obtain ⟨value, hvalue, hstands⟩ := hstanding.stands entry hlive
  rw [hid, hpublished] at hvalue
  obtain rfl := Option.some.inj hvalue
  have hentry : w.entry? handle.entry = some entry := hid ▸ entry?_eq_some hsound.indexed.ids hlive
  cases hresident : entry.resident with
  | some allocation =>
      refine ⟨w.lend entry allocation, ⟨entry.id, allocation⟩, ?_,
        hstands.resident allocation hresident⟩
      simp only [World.lease, herror, hentry, Option.bind_eq_bind, Option.bind_some, hresident]
      rfl
  | none =>
      obtain ⟨digest, hdigest⟩ := Option.ne_none_iff_exists'.mp (hstands.somewhere hresident)
      obtain ⟨bytes, hencode, hhashed, hstored⟩ := hstands.written digest hdigest
      have hread : entry.reloaded platform answer = .ok handle.published := by
        rw [hanswer bytes (hid ▸ hstored)]
        have hsame : ¬ (some (platform.hash bytes) ≠ entry.integrity) := by
          rw [hdigest, hhashed]
          exact not_not.mpr rfl
        show (if some (platform.hash bytes) ≠ entry.integrity then _ else _) = _
        rw [if_neg hsame]
        exact entry.codec.decode_encode _ bytes hencode
      obtain ⟨drained, hdrain, -⟩ := hsound.ledger.drain hsound.agree
      let allocation : Allocation V := ⟨address, handle.published, footprint⟩
      refine ⟨(drained.reload entry allocation).lend (entry.refill allocation) allocation,
        ⟨entry.id, allocation⟩, ?_, rfl⟩
      simp only [World.lease, herror, hentry, Option.bind_eq_bind, Option.bind_some, hresident,
        hread, hdrain]
      rfl

end Hash

/-! ## A put that fails -/

theorem persist_live {puts : Nat → Put} {entry : Entry V H} {value : V}
    {outcome : Except String (Entry V H)}
    (h : w.persist platform puts entry value = (w', outcome)) : w'.live = w.live := by
  unfold World.persist at h
  split at h
  · cases h
    rfl
  · split at h
    · cases h
      rfl
    · split at h <;> cases h <;> rfl

/-- The walk leaves an entry whose put fails as it is. -/
theorem evict_failed {all : Bool} {puts : Nat → Put} {ids : List Nat} {resident resident' : Nat}
    {outcome : Except String Unit} {entry : Entry V H} {message : String}
    {left : Option (List UInt8)} (hids : (w.live.map Entry.id).Nodup) (hlive : entry ∈ w.live)
    (hnone : entry.integrity = none) (hput : puts entry.id = .failed message left)
    (h : w.evict platform all puts ids resident = some (w', resident', outcome)) :
    entry ∈ w'.live := by
  induction ids generalizing w resident with
  | nil =>
      cases h
      exact hlive
  | cons id later ih =>
      rw [World.evict] at h
      split at h
      · cases h
        exact hlive
      · split at h
        · exact ih hids hlive h
        · next found hfound =>
            obtain ⟨hfoundlive, -⟩ := mem_live_of_entry hfound
            split at h
            · exact ih hids hlive h
            · next value hresident =>
                split at h
                · exact ih hids hlive h
                · split at h
                  · next w₁ error hpersist =>
                      cases h
                      exact (persist_live hpersist).symm ▸ hlive
                  · next w₁ stored hpersist =>
                      obtain ⟨⟨w₂, released⟩, hunload, hlater⟩ := Option.bind_eq_some_iff.mp h
                      obtain ⟨-, hlives, -, -, digest, rfl, hstored⟩ :=
                        persist_ok hfoundlive hpersist
                      obtain ⟨state, -, rfl⟩ := unload_eq_some hunload
                      have hids₁ : (w₁.live.map Entry.id).Nodup := hlives ▸ hids
                      refine ih ?_ ?_ hlater
                      · rw [setEntry_ids]
                        exact hids₁
                      · -- The entry written out is another: this one's put fails.
                        refine mem_setEntry.mpr ⟨entry, hlives ▸ hlive, if_neg ?_⟩
                        intro hid
                        have heq : entry = found := eq_of_ids hids hfoundlive hlive hid
                        subst heq
                        rw [World.persist, hnone] at hpersist
                        dsimp only at hpersist
                        rw [hput] at hpersist
                        split at hpersist <;> cases hpersist

/-- A trim that cannot store a value leaves it in memory. -/
theorem trimLocked_failed {all : Bool} {puts : Nat → Put} {outcome : Except String Unit}
    {entry : Entry V H} {message : String} {left : Option (List UInt8)}
    (hids : (w.live.map Entry.id).Nodup) (hlive : entry ∈ w.live)
    (hnone : entry.integrity = none) (hput : puts entry.id = .failed message left)
    (h : w.trimLocked platform all puts = some (w', outcome)) : entry ∈ w'.live := by
  obtain ⟨drained, hdrain, h⟩ := Option.bind_eq_some_iff.mp h
  have hlives : drained.pruneDoubled.live = w.live := by
    rw [← drain_live hdrain, World.pruneDoubled]
    split <;> rfl
  dsimp only at h
  split at h
  · cases h
    exact hlives.symm ▸ hlive
  · split at h
    · cases h
      exact hlives.symm ▸ hlive
    · obtain ⟨⟨evicted, resident, outcome'⟩, hevict, h⟩ := Option.bind_eq_some_iff.mp h
      cases h
      have hkept : entry ∈ evicted.live := by
        refine evict_failed (w := drained.pruneDoubled.prune) ?_ ?_ hnone hput hevict
        · show (drained.pruneDoubled.live.map Entry.id).Nodup
          rw [hlives]
          exact hids
        · show entry ∈ drained.pruneDoubled.live
          rw [hlives]
          exact hlive
      exact hkept

/-- A lease that succeeds returns the published value. A value whose put fails stays in memory and
on the books. A failed reload changes no entry, and wherever the handle is held and no failure is
latched, a lease with the backend's bytes succeeds; a latched failure is returned by one lease. -/
theorem leases_reachable [DecidableEq H] (hhash : Function.Injective platform.hash)
    (hreached : Reachable platform w) :
    (∀ handle ∈ w.handles, ∀ answer address footprint w' lease,
      w.lease platform handle answer address footprint = some (w', .ok lease) →
        lease.value.value = handle.published) ∧
    (∀ w₁, ReflTransGen (Move platform) w w₁ → ∀ all puts w' outcome,
      w₁.trimLocked platform all puts = some (w', outcome) →
        ∀ entry ∈ w₁.live, entry.resident.isSome → entry.integrity = none →
        ∀ message left, puts entry.id = .failed message left →
          entry ∈ w'.live ∧ holdingOf entry.bytes entry.rowFootprint ∈ w'.holdings ∧
            w'.state.residentBytes = total sharedRowMapBytes w'.holdings) ∧
    (∀ handle answer address footprint w' error,
      w.lease platform handle answer address footprint = some (w', .error error) →
        w'.live = w.live ∧ w'.stored = w.stored ∧ w'.handles = w.handles ∧
          (∀ latched ∈ w.state.error, error = latched ∧ w'.state.error = none)) ∧
    ∀ handle ∈ w.handles, w.state.error = none → ∀ answer,
      (∀ bytes, w.stored handle.entry = some bytes → answer = .ok bytes) →
      ∀ address footprint, ∃ w' lease,
        w.lease platform handle answer address footprint = some (w', .ok lease) ∧
          lease.value.value = handle.published := by
  refine ⟨?_, ?_, ?_, ?_⟩
  · intro handle hhandle answer address footprint w' lease hlease
    exact lease_published hhash hreached hhandle hlease
  · intro w₁ hmoves all puts w' outcome htrim entry hentry hresident hnone message left hput
    have hsound := sound_moves hreached.sound hmoves
    have hkept := trimLocked_failed hsound.indexed.ids hentry hnone hput htrim
    refine ⟨hkept, ?_, (sound_trims hsound (trims_trimLocked htrim)).ledger.charged⟩
    obtain ⟨value, hvalue⟩ := Option.isSome_iff_exists.mp hresident
    refine Multiset.mem_coe.mpr (List.mem_append_left _ (List.mem_filterMap.mpr ⟨entry, hkept, ?_⟩))
    rw [Entry.holding, hvalue, Option.map_some]
  · intro handle answer address footprint w' error hlease
    obtain ⟨hlive, hstored, hhandles⟩ := lease_error hlease
    refine ⟨hlive, hstored, hhandles, ?_⟩
    intro latched hlatched
    have hlatched : w.state.error = some latched := hlatched
    rw [World.lease, hlatched] at hlease
    cases hlease
    exact ⟨rfl, rfl⟩
  · intro handle hhandle herror answer hanswer address footprint
    exact lease_of_stored hhash hreached hhandle herror address footprint answer hanswer

/-- A value is written out and a reload of it fails; then the put of another value fails. -/
def latchedWorld : Option (World Nat (List UInt8)) :=
  World.run plainPlatform { state := { budget := 10 } }
    [.allocate ⟨100, 7, none⟩, .publish 0 5 byteCodec fun _ => .done,
      .evictUnpinned fun _ => .done, .lease 0 (.error "unreachable") 200 none,
      .allocate ⟨300, 9, none⟩, .publish 0 5 byteCodec fun _ => .done,
      .evictUnpinned fun _ => .failed "full" none]

/-- The backend works again, and a lease of the first value fails. -/
theorem lease_latched : ∃ w ∈ latchedWorld, Reachable plainPlatform w ∧
    ∃ handle ∈ w.handles, w.stored handle.entry = some [7] ∧
      ∃ w', w.lease plainPlatform handle (.ok [7]) 200 none = some (w', .error "full") := by
  obtain ⟨w, hw⟩ : ∃ w, latchedWorld = some w := Option.isSome_iff_exists.mp (by decide)
  have hread : latchedWorld.map (fun w =>
      (w.handles.head?.map PayloadHandle.entry, w.stored 0, w.state.error)) =
      some (some 0, some [7], some "full") := by decide
  rw [hw] at hread
  obtain ⟨hhead, hread⟩ := Prod.mk.inj (Option.some.inj hread)
  obtain ⟨hstored, herror⟩ := Prod.mk.inj hread
  obtain ⟨handle, hhandle, hentry⟩ := Option.map_eq_some_iff.mp hhead
  have hreached : Reachable plainPlatform w := (Reachable.new 10).run (by decide) hw
  refine ⟨w, hw, hreached, handle, List.mem_of_head? hhandle, hentry ▸ hstored, w.unlatched, ?_⟩
  rw [World.lease, herror]

theorem leases_reloadedWorld : ∃ w ∈ reloadedWorld,
    ∀ handle ∈ w.handles, ∀ answer address footprint w' lease,
      w.lease plainPlatform handle answer address footprint = some (w', .ok lease) →
        lease.value.value = handle.published := by
  obtain ⟨w, hw⟩ : ∃ w, reloadedWorld = some w := Option.isSome_iff_exists.mp (by decide)
  have hreached : Reachable plainPlatform w := (Reachable.new 10).run (by decide) hw
  exact ⟨w, hw, (leases_reachable (fun _ _ heq => heq) hreached).1⟩

end Chronicle.Payloads
