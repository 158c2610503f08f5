import Chronicle.Payloads.StoreIndex

/-!
# Publishing an allocation again

A value that a client still refers to cannot be written out, so for as long as its entry lives a
publish of the same allocation finds it.
-/

namespace Chronicle.Payloads

open Relation

variable {V H : Type} {platform : Platform V H} {w w' : World V H} {id : Nat}
  {value : Allocation V}

/-- The entry lives and has the value in memory. -/
def World.Keeps (w : World V H) (id : Nat) (value : Allocation V) : Prop :=
  ∃ entry ∈ w.live, entry.id = id ∧ entry.resident = some value

/-- The entry is dropped; its identity is not given out again. -/
def World.Gone (w : World V H) (id : Nat) : Prop :=
  (∀ entry ∈ w.live, entry.id ≠ id) ∧ id < w.nextPayloadId

/-- A client refers to the value. -/
def World.Held (w : World V H) (value : Allocation V) : Prop :=
  (∃ lease ∈ w.leases, lease.value = value) ∨ value ∈ w.shared

/-- An operation after which the entry lives and a client refers to the value. -/
def Retaining [DecidableEq H] (platform : Platform V H) (id : Nat) (value : Allocation V)
    (w w' : World V H) : Prop :=
  ∃ operation, w.Possible operation ∧ w.step platform operation = some w' ∧
    (∃ entry ∈ w'.live, entry.id = id) ∧ w'.Held value

theorem World.Keeps.setEntry {entry : Entry V H} (hkeeps : w.Keeps id value)
    (hown : entry.id = id → entry.resident = some value) : (w.setEntry entry).Keeps id value := by
  obtain ⟨old, hold, hid, hresident⟩ := hkeeps
  by_cases heq : old.id = entry.id
  · exact ⟨entry, mem_setEntry.mpr ⟨old, hold, if_pos heq⟩, heq ▸ hid, hown (heq ▸ hid)⟩
  · exact ⟨old, mem_setEntry.mpr ⟨old, hold, if_neg heq⟩, hid, hresident⟩

theorem World.Gone.setEntry {entry : Entry V H} (hgone : w.Gone id) :
    (w.setEntry entry).Gone id := by
  refine ⟨?_, hgone.2⟩
  intro other hother
  obtain ⟨old, hold, rfl⟩ := mem_setEntry.mp hother
  split
  · next heq => exact heq ▸ hgone.1 old hold
  · exact hgone.1 old hold

/-- An entry that is dropped is gone; the others stay as they are. -/
theorem releaseEntry_keeps {dropped : Nat} (hindexed : w.Indexed) (hkeeps : w.Keeps id value) :
    (w.releaseEntry dropped).Keeps id value ∨ (w.releaseEntry dropped).Gone id := by
  unfold World.releaseEntry
  split
  · exact .inl hkeeps
  · split
    · exact .inl hkeeps
    · obtain ⟨entry, hentry, hid, hresident⟩ := hkeeps
      by_cases heq : id = dropped
      · refine .inr ⟨?_, hid ▸ hindexed.fresh entry hentry⟩
        intro other hother
        dsimp only at hother
        have hne := of_decide_eq_true (List.mem_filter.mp hother).2
        exact heq ▸ hne
      · refine .inl ⟨entry, List.mem_filter.mpr ⟨hentry, ?_⟩, hid, hresident⟩
        exact decide_eq_true (hid ▸ heq)

theorem releaseEntry_gone {dropped : Nat} (hgone : w.Gone id) : (w.releaseEntry dropped).Gone id :=
  ⟨fun entry hentry => hgone.1 entry ((releaseEntry_live dropped).subset hentry),
    (releaseEntry_nextPayloadId (w := w) dropped).symm ▸ hgone.2⟩

theorem register_keeps {other : Allocation V} {residentBytes : Nat} {codec : Codec V}
    (hkeeps : w.Keeps id value) : (w.register other residentBytes codec).Keeps id value := by
  obtain ⟨entry, hentry, hrest⟩ := hkeeps
  unfold World.register
  split
  · exact ⟨entry, hentry, hrest⟩
  · exact ⟨entry, List.mem_append_left _ hentry, hrest⟩

theorem register_gone {other : Allocation V} {residentBytes : Nat} {codec : Codec V}
    (hgone : w.Gone id) : (w.register other residentBytes codec).Gone id := by
  unfold World.register
  split
  · exact hgone
  · refine ⟨?_, Nat.lt_succ_of_lt hgone.2⟩
    intro entry hentry
    rcases List.mem_append.mp hentry with hold | hnew
    · exact hgone.1 entry hold
    · obtain rfl := List.mem_singleton.mp hnew
      exact hgone.2.ne'

theorem settle_live (h : Settle w w') : w'.live = w.live ∧ w'.nextPayloadId = w.nextPayloadId := by
  cases h with
  | quiet => exact ⟨rfl, rfl⟩
  | drain hdrain =>
      obtain ⟨state, -, rfl⟩ := drain_eq_some hdrain
      exact ⟨rfl, rfl⟩

/-- A move of a client keeps the value of an entry that it does not drop. -/
theorem keeps_move [DecidableEq H] (hindexed : w.Indexed) (hkeeps : w.Keeps id value)
    (hmove : Move platform w w') : w'.Keeps id value ∨ w'.Gone id := by
  cases hmove with
  | settle hsettle =>
      rw [World.Keeps, (settle_live hsettle).1]
      exact .inl hkeeps
  | allocate | share | releaseShared | cloneHandle => exact .inl hkeeps
  | @publish other position hvalue residentBytes codec =>
      exact .inl (register_keeps (w := { w with shared := w.shared.eraseIdx position }) hkeeps)
  | @dropHandle handle position hhandle =>
      exact releaseEntry_keeps (w := { w with handles := w.handles.eraseIdx position })
        (hindexed.mono (List.Sublist.refl _) rfl rfl) hkeeps
  | @dropLease lease position hlease =>
      exact releaseEntry_keeps (w := { w with leases := w.leases.eraseIdx position })
        (hindexed.mono (List.Sublist.refl _) rfl rfl) hkeeps
  | @reload entry other answer hlive hspilled hvalue hfree =>
      refine .inl (World.Keeps.setEntry hkeeps ?_)
      intro hid
      obtain ⟨own, hown, hownid, hresident⟩ := hkeeps
      have heq : own = entry := eq_of_ids hindexed.ids hlive hown (hownid.trans hid.symm)
      rw [heq, hspilled] at hresident
      cases hresident
  | @lend entry other hlive hresident =>
      refine .inl (World.Keeps.setEntry hkeeps ?_)
      intro hid
      obtain ⟨own, hown, hownid, hresident⟩ := hkeeps
      have heq : own = entry := eq_of_ids hindexed.ids hlive hown (hownid.trans hid.symm)
      exact heq ▸ hresident
  | @markCold entry hlive =>
      refine .inl (World.Keeps.setEntry hkeeps ?_)
      intro hid
      obtain ⟨own, hown, hownid, hresident⟩ := hkeeps
      have heq : own = entry := eq_of_ids hindexed.ids hlive hown (hownid.trans hid.symm)
      exact heq ▸ hresident

theorem gone_move [DecidableEq H] (hgone : w.Gone id) (hmove : Move platform w w') : w'.Gone id := by
  cases hmove with
  | settle hsettle =>
      rw [World.Gone, (settle_live hsettle).1, (settle_live hsettle).2]
      exact hgone
  | allocate | share | releaseShared | cloneHandle => exact hgone
  | @publish other position hvalue residentBytes codec =>
      exact register_gone (w := { w with shared := w.shared.eraseIdx position }) hgone
  | @dropHandle handle position hhandle =>
      exact releaseEntry_gone (w := { w with handles := w.handles.eraseIdx position }) hgone
  | @dropLease lease position hlease =>
      exact releaseEntry_gone (w := { w with leases := w.leases.eraseIdx position }) hgone
  | @reload entry other answer hlive hspilled hvalue hfree =>
      exact World.Gone.setEntry hgone
  | @lend entry other hlive hresident => exact World.Gone.setEntry hgone
  | @markCold entry hlive => exact World.Gone.setEntry hgone

/-- A value that an entry and a client refer to is referred to twice. -/
theorem strongCount_of_held {entry : Entry V H} (hlive : entry ∈ w.live)
    (hresident : entry.resident = some value) (hheld : w.Held value) :
    w.strongCount value.address ≠ 1 := by
  have hentry : value ∈ (w.live.filterMap Entry.resident).filter
      fun other => other.address = value.address :=
    List.mem_filter.mpr ⟨List.mem_filterMap.mpr ⟨entry, hlive, hresident⟩, by simp⟩
  have hclient : value ∈ (w.leases.map PayloadLease.value ++ w.shared).filter
      fun other => other.address = value.address := by
    refine List.mem_filter.mpr ⟨?_, by simp⟩
    rcases hheld with hlease | hshared
    · exact List.mem_append_left _ (List.mem_map.mpr hlease)
    · exact List.mem_append_right _ hshared
  have htwo : 2 ≤ w.strongCount value.address := by
    rw [World.strongCount, World.allocations, List.append_assoc _ _ w.shared, List.filter_append,
      List.filter_append, List.length_append, List.length_append]
    have hfirst := List.length_pos_of_mem hentry
    have hsecond := List.length_pos_of_mem hclient
    omega
  omega

/-- What the clients hold and which entries live is the same. -/
structure SameClients (w w' : World V H) : Prop where
  ids : w'.live.map Entry.id = w.live.map Entry.id
  next : w'.nextPayloadId = w.nextPayloadId
  handles : w'.handles = w.handles
  leases : w'.leases = w.leases
  shared : w'.shared = w.shared

theorem trim_clients (h : Trim platform w w') : SameClients w w' := by
  cases h with
  | settle hsettle =>
      cases hsettle with
      | quiet => exact ⟨rfl, rfl, rfl, rfl, rfl⟩
      | drain hdrain =>
          obtain ⟨state, -, rfl⟩ := drain_eq_some hdrain
          exact ⟨rfl, rfl, rfl, rfl, rfl⟩
  | prune => exact ⟨rfl, rfl, rfl, rfl, rfl⟩
  | put => exact ⟨rfl, rfl, rfl, rfl, rfl⟩
  | unload _ _ _ _ hunload =>
      obtain ⟨state, -, rfl⟩ := unload_eq_some hunload
      exact ⟨setEntry_ids _, rfl, rfl, rfl, rfl⟩

theorem trims_clients (h : ReflTransGen (Trim platform) w w') : SameClients w w' := by
  induction h with
  | refl => exact ⟨rfl, rfl, rfl, rfl, rfl⟩
  | tail _ htrim ih =>
      have hlast := trim_clients htrim
      exact ⟨hlast.ids.trans ih.ids, hlast.next.trans ih.next, hlast.handles.trans ih.handles,
        hlast.leases.trans ih.leases, hlast.shared.trans ih.shared⟩

theorem SameClients.held (h : SameClients w w') : w'.Held value ↔ w.Held value := by
  rw [World.Held, World.Held, h.leases, h.shared]

theorem gone_trim (hgone : w.Gone id) (h : Trim platform w w') : w'.Gone id := by
  have hsame := trim_clients h
  refine ⟨?_, hsame.next ▸ hgone.2⟩
  intro entry hentry heq
  have hmem : id ∈ w.live.map Entry.id := hsame.ids ▸ heq ▸ List.mem_map_of_mem hentry
  obtain ⟨old, hold, hid⟩ := List.mem_map.mp hmem
  exact hgone.1 old hold hid

/-- A trim leaves a value that a client refers to in memory. -/
theorem keeps_trim (hindexed : w.Indexed) (hkeeps : w.Keeps id value) (hheld : w.Held value)
    (h : Trim platform w w') : w'.Keeps id value := by
  cases h with
  | settle hsettle =>
      rw [World.Keeps, (settle_live hsettle).1]
      exact hkeeps
  | prune => exact hkeeps
  | put => exact hkeeps
  | @unload _ entry other digest released hlive hresident hcount hstored hunload =>
      obtain ⟨state, -, rfl⟩ := unload_eq_some hunload
      refine World.Keeps.setEntry hkeeps ?_
      intro hid
      obtain ⟨own, hown, hownid, hvalue⟩ := hkeeps
      have heq : own = entry := eq_of_ids hindexed.ids hlive hown (hownid.trans hid.symm)
      rw [heq, hresident] at hvalue
      cases hvalue
      exact absurd hcount (strongCount_of_held hlive hresident hheld)

/-! ## Runs -/

/-- In every world of an operation the entry has the value or is gone. -/
theorem keeps_moves [DecidableEq H] (hindexed : w.Indexed) (hkeeps : w.Keeps id value)
    (hmoves : ReflTransGen (Move platform) w w') :
    w'.Indexed ∧ (w'.Keeps id value ∨ w'.Gone id) := by
  induction hmoves with
  | refl => exact ⟨hindexed, .inl hkeeps⟩
  | tail _ hmove ih =>
      obtain ⟨hindexed, hkeeps | hgone⟩ := ih
      · exact ⟨indexed_move hindexed hmove, keeps_move hindexed hkeeps hmove⟩
      · exact ⟨indexed_move hindexed hmove, .inr (gone_move hgone hmove)⟩

theorem keeps_trims (hindexed : w.Indexed) (hkeeps : w.Keeps id value ∨ w.Gone id)
    (hheld : w.Held value) (htrims : ReflTransGen (Trim platform) w w') :
    w'.Indexed ∧ (w'.Keeps id value ∨ w'.Gone id) := by
  induction htrims with
  | refl => exact ⟨hindexed, hkeeps⟩
  | tail hbefore htrim ih =>
      obtain ⟨hindexed, hkeeps | hgone⟩ := ih
      · have hheld' := (trims_clients hbefore).held.mpr hheld
        exact ⟨indexed_trim hindexed htrim, .inl (keeps_trim hindexed hkeeps hheld' htrim)⟩
      · exact ⟨indexed_trim hindexed htrim, .inr (gone_trim hgone htrim)⟩

theorem keeps_retaining [DecidableEq H] (hindexed : w.Indexed) (hkeeps : w.Keeps id value)
    (h : Retaining platform id value w w') : w'.Keeps id value := by
  obtain ⟨operation, hpossible, hstep, ⟨entry, hentry, hid⟩, hheld⟩ := h
  obtain ⟨middle, hmoves, htrims⟩ := moves_step hpossible hstep
  obtain ⟨hmiddle, hkept⟩ := keeps_moves hindexed hkeeps hmoves
  have hbefore : middle.Held value := (trims_clients htrims).held.mp hheld
  obtain ⟨-, hkeeps | hgone⟩ := keeps_trims hmiddle hkept hbefore htrims
  · exact hkeeps
  · exact absurd hid (hgone.1 entry hentry)

/-- Through a run that keeps the entry and a reference to its value, the value stays. -/
theorem keeps_run [DecidableEq H] (h : Reachable platform w) (hkeeps : w.Keeps id value)
    (hrun : ReflTransGen (Retaining platform id value) w w') :
    Reachable platform w' ∧ w'.Keeps id value := by
  induction hrun with
  | refl => exact ⟨h, hkeeps⟩
  | tail _ hlast ih =>
      obtain ⟨hreached, hkeeps⟩ := ih
      have hkept := keeps_retaining hreached.indexed hkeeps hlast
      obtain ⟨operation, hpossible, hstep, -⟩ := hlast
      exact ⟨.step hreached hpossible hstep, hkept⟩

/-- A publish of a value that an entry has makes a handle of that entry. -/
theorem publish_kept [DecidableEq H] {shared residentBytes : Nat} {codec : Codec V}
    {puts : Nat → Put} (hindexed : w.Indexed) (hkeeps : w.Keeps id value)
    (hvalue : w.shared[shared]? = some value)
    (hstep : w.step platform (.publish shared residentBytes codec puts) = some w') :
    w'.live.map Entry.id = w.live.map Entry.id ∧
      w'.handles = w.handles ++ [⟨id, value.value⟩] := by
  obtain ⟨found, hfound, h⟩ := Option.bind_eq_some_iff.mp hstep
  rw [hvalue] at hfound
  cases hfound
  obtain ⟨moved, hmoved, h⟩ := Option.bind_eq_some_iff.mp h
  obtain ⟨state, hstate, rfl⟩ := drain_eq_some hmoved
  obtain ⟨entry, hentry, rfl, hresident⟩ := hkeeps
  have hdrained : World.Indexed { w with state, shared := w.shared.eraseIdx shared } :=
    hindexed.mono (List.Sublist.refl _) (drainDroppedResidents_index hstate).2.1 rfl
  rw [World.register, hdrained.existing hentry hresident] at h
  have hsame := trims_clients (trims_trimOnDrop h)
  exact ⟨hsame.ids, hsame.handles⟩

/-- A published value that a client still refers to stays with the entry of the new handle. -/
theorem publish_keeps [DecidableEq H] {shared residentBytes : Nat} {codec : Codec V}
    {puts : Nat → Put} (hindexed : w.Indexed) (hdistinct : w.Distinct)
    (hvalue : w.shared[shared]? = some value)
    (hstep : w.step platform (.publish shared residentBytes codec puts) = some w')
    (hheld : w'.Held value) :
    ∃ id, w'.handles = w.handles ++ [⟨id, value.value⟩] ∧ w'.Keeps id value := by
  obtain ⟨found, hfound, h⟩ := Option.bind_eq_some_iff.mp hstep
  rw [hvalue] at hfound
  cases hfound
  obtain ⟨moved, hmoved, h⟩ := Option.bind_eq_some_iff.mp h
  obtain ⟨state, hstate, rfl⟩ := drain_eq_some hmoved
  have hdrained : World.Indexed { w with state, shared := w.shared.eraseIdx shared } :=
    hindexed.mono (List.Sublist.refl _) (drainDroppedResidents_index hstate).2.1 rfl
  have hregister : World.Indexed (World.register _ value residentBytes codec) := hdrained.register
  have htrims := trims_trimOnDrop h
  have hsame := trims_clients htrims
  obtain ⟨id, hhandles, hkeeps⟩ : ∃ id,
      (World.register { w with state, shared := w.shared.eraseIdx shared } value residentBytes
        codec).handles = w.handles ++ [⟨id, value.value⟩] ∧
      (World.register { w with state, shared := w.shared.eraseIdx shared } value residentBytes
        codec).Keeps id value := by
    unfold World.register
    split
    · next entry hentry =>
        obtain ⟨hlive, own, hown, haddress⟩ := existing_eq_some hentry
        have heq : own = value :=
          hdistinct own (mem_allocations.mpr (.inl ⟨entry, hlive, hown⟩)) value
            (mem_allocations.mpr (.inr (.inr (.inr (List.mem_of_getElem? hvalue))))) haddress
        exact ⟨entry.id, rfl, entry, hlive, rfl, heq ▸ hown⟩
    · refine ⟨w.nextPayloadId, rfl, _, List.mem_append_right _ (List.mem_singleton_self _), rfl, rfl⟩
  refine ⟨id, hsame.handles.trans hhandles, ?_⟩
  obtain ⟨hindexed', hkept | hgone⟩ :=
    keeps_trims hregister (.inl hkeeps) (hsame.held.mp hheld) htrims
  · exact hkept
  · obtain ⟨entry, hentry, hid, -⟩ := hkeeps
    have hmem : id ∈ w'.live.map Entry.id := hsame.ids ▸ hid ▸ List.mem_map_of_mem hentry
    obtain ⟨other, hother, hotherid⟩ := List.mem_map.mp hmem
    exact absurd hotherid (hgone.1 other hother)

/-- What a lease returns is the value that the handle's entry has from then on. -/
theorem lease_keeps [DecidableEq H] {handle : PayloadHandle V}
    {answer : Except String (List UInt8)} {address : Nat} {footprint : Option RowTableFootprint}
    {lease : PayloadLease V}
    (h : w.lease platform handle answer address footprint = some (w', .ok lease)) :
    lease.entry = handle.entry ∧ w'.Keeps handle.entry lease.value ∧ w'.Held lease.value := by
  unfold World.lease at h
  split at h
  · cases h
  · obtain ⟨entry, hentry, h⟩ := Option.bind_eq_some_iff.mp h
    obtain ⟨hlive, hid⟩ := mem_live_of_entry hentry
    split at h
    · next value hresident =>
        cases h
        refine ⟨hid, ⟨_, mem_setEntry.mpr ⟨entry, hlive, if_pos rfl⟩, hid, hresident⟩, .inl ?_⟩
        exact ⟨_, List.mem_append_right _ (List.mem_singleton_self _), rfl⟩
    · split at h
      · cases h
      · next value hvalue =>
          obtain ⟨drained, hdrain, h⟩ := Option.bind_eq_some_iff.mp h
          obtain ⟨state, -, rfl⟩ := drain_eq_some hdrain
          cases h
          have hreloaded : entry.refill ⟨address, value, footprint⟩ ∈
              (World.reload { w with state } entry ⟨address, value, footprint⟩).live :=
            mem_setEntry.mpr ⟨entry, hlive, if_pos rfl⟩
          refine ⟨hid, ⟨_, mem_setEntry.mpr ⟨_, hreloaded, if_pos rfl⟩, hid, rfl⟩, .inl ?_⟩
          exact ⟨_, List.mem_append_right _ (List.mem_singleton_self _), rfl⟩

/-- The index leads from the address of a value in memory to the one living entry that has it.
While the entry lives and a client refers to the value, be it as it was first published or as a
lease brought it back, another publish of it makes a handle of that entry. No operation removes or
redirects the address of an entry whose value stays where it is. -/
theorem addressIndex_reachable [DecidableEq H] (h : Reachable platform w) :
    (∀ entry ∈ w.live, ∀ value ∈ entry.resident,
      w.state.byAddress value.address = some entry.id ∧
        ∀ other ∈ w.live, ∀ found ∈ other.resident, found.address = value.address →
          other = entry) ∧
    (∀ shared residentBytes codec puts w₁ value, w.shared[shared]? = some value →
      w.step platform (.publish shared residentBytes codec puts) = some w₁ → w₁.Held value →
      ∃ id, w₁.handles = w.handles ++ [⟨id, value.value⟩] ∧
        ∀ w₂, ReflTransGen (Retaining platform id value) w₁ w₂ →
        ∀ again bytes codec' puts' w₃, w₂.shared[again]? = some value →
          w₂.step platform (.publish again bytes codec' puts') = some w₃ →
          w₃.live.map Entry.id = w₂.live.map Entry.id ∧
            w₃.handles = w₂.handles ++ [⟨id, value.value⟩]) ∧
    (∀ handle ∈ w.handles, ∀ answer address footprint w₁ lease,
      w.Free address ((footprint.map RowTableFootprint.rows).getD []) →
      w.lease platform handle answer address footprint = some (w₁, .ok lease) →
        ∀ w₂, ReflTransGen (Retaining platform handle.entry lease.value) w₁ w₂ →
        ∀ shared residentBytes codec puts w₃, w₂.shared[shared]? = some lease.value →
          w₂.step platform (.publish shared residentBytes codec puts) = some w₃ →
          w₃.live.map Entry.id = w₂.live.map Entry.id ∧
            w₃.handles = w₂.handles ++ [⟨handle.entry, lease.value.value⟩]) ∧
    ∀ operation w', w.Possible operation → w.step platform operation = some w' →
      ∀ entry ∈ w.live, ∀ value : Allocation V, w.state.byAddress value.address = some entry.id →
        w'.Keeps entry.id value → w'.state.byAddress value.address = some entry.id := by
  have hindexed := h.indexed
  refine ⟨?_, ?_, ?_, ?_⟩
  · intro entry hentry value hvalue
    have hmaps := (hindexed.found entry hentry value hvalue).2
    refine ⟨hmaps, ?_⟩
    intro other hother found hfound haddress
    have hothermaps := (hindexed.found other hother found hfound).2
    rw [haddress, hmaps] at hothermaps
    exact eq_of_ids hindexed.ids hentry hother (Option.some.inj hothermaps).symm
  · -- a published value stays indexed for as long as its entry is retained
    intro shared residentBytes codec puts w₁ value hvalue hstep hheld
    obtain ⟨id, hhandles, hkeeps⟩ := publish_keeps hindexed h.distinct hvalue hstep hheld
    refine ⟨id, hhandles, ?_⟩
    intro w₂ hrun again bytes codec' puts' w₃ hagain hstep'
    have hpossible : w.Possible (.publish shared residentBytes codec puts) := trivial
    have hreached : Reachable platform w₁ := .step h hpossible hstep
    obtain ⟨hreached', hkept⟩ := keeps_run hreached hkeeps hrun
    exact publish_kept hreached'.indexed hkept hagain hstep'
  · -- a leased value does too, since leasing makes its entry resident
    intro handle hhandle answer address footprint w₁ lease hfree hlease w₂ hrun shared
      residentBytes codec puts w₃ hshared hstep
    obtain ⟨position, hposition⟩ := List.getElem?_of_mem hhandle
    have hreached : Reachable platform w₁ := by
      have hpossible : w.Possible (.lease position answer address footprint) := hfree
      refine .step h hpossible ?_
      rw [World.step, hposition]
      show (w.lease platform handle answer address footprint >>= fun leased => some leased.1) = _
      rw [hlease]
      rfl
    obtain ⟨-, hkeeps, -⟩ := lease_keeps hlease
    obtain ⟨hreached', hkept⟩ := keeps_run hreached hkeeps hrun
    exact publish_kept hreached'.indexed hkept hshared hstep
  · intro operation w' hpossible hstep entry hentry value hmaps hkeeps
    obtain ⟨kept, hkept, hid, hresident⟩ := hkeeps
    have hindexed' := (Reachable.step h hpossible hstep).indexed
    rw [← hid]
    exact (hindexed'.found kept hkept value hresident).2

/-- Bytes stand for the numbers below 256. -/
def byteCodec : Codec Nat where
  encode value := if value < 256 then .ok [UInt8.ofNat value] else .error "not a byte"
  decode
    | [byte] => .ok byte.toNat
    | _ => .error "not one byte"
  decode_encode := by
    intro value bytes h
    split at h
    · next hvalue =>
        cases h
        show Except.ok (UInt8.ofNat value).toNat = Except.ok value
        rw [UInt8.toNat_ofNat', Nat.mod_eq_of_lt hvalue]
    · cases h

/-- Bytes that are their own hash, and entries in the order of their last use. -/
def plainPlatform {V : Type} : Platform V (List UInt8) where
  hash := fun bytes => bytes
  byLastUse := List.insertionSort fun a b => a.lastUsed ≤ b.lastUsed
  perm := List.perm_insertionSort _
  sorted := by
    have htotal : Std.Total fun a b : Entry V (List UInt8) => a.lastUsed ≤ b.lastUsed :=
      ⟨fun a b => Nat.le_total a.lastUsed b.lastUsed⟩
    have htrans : IsTrans (Entry V (List UInt8)) fun a b => a.lastUsed ≤ b.lastUsed :=
      ⟨fun _ _ _ => Nat.le_trans⟩
    exact List.pairwise_insertionSort _

/-- A value is published, written out and read back at another address. -/
def reloadedWorld : Option (World Nat (List UInt8)) :=
  World.run plainPlatform { state := { budget := 10 } }
    [.allocate ⟨100, 7, none⟩, .publish 0 5 byteCodec fun _ => .done,
      .evictUnpinned fun _ => .done, .lease 0 (.ok [7]) 200 none, .share 0]

theorem addressIndex_reloadedWorld : ∃ w ∈ reloadedWorld,
    w.state.byAddress 100 = none ∧ w.state.byAddress 200 = some 0 ∧
      ∀ entry ∈ w.live, ∀ value ∈ entry.resident,
        w.state.byAddress value.address = some entry.id ∧
          ∀ other ∈ w.live, ∀ found ∈ other.resident, found.address = value.address →
            other = entry := by
  obtain ⟨w, hw⟩ : ∃ w, reloadedWorld = some w :=
    Option.isSome_iff_exists.mp (by decide)
  have hindex : reloadedWorld.map (fun w => (w.state.byAddress 100, w.state.byAddress 200)) =
      some (none, some 0) := by decide
  rw [hw] at hindex
  obtain ⟨hstale, hfresh⟩ := Prod.mk.inj (Option.some.inj hindex)
  have hreached : Reachable plainPlatform w := (Reachable.new 10).run (by decide) hw
  exact ⟨w, hw, hstale, hfresh, (addressIndex_reachable hreached).1⟩

end Chronicle.Payloads
