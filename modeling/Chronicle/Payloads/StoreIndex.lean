import Chronicle.Payloads.Moves

/-!
# The address index of the store

An address of the index names at most one living entry, the one whose value lies there. Addresses
are given out again, so what is forgotten of a value that was written out must not be another's.
-/

namespace Chronicle.Payloads

open Relation

variable {V H : Type} {platform : Platform V H} {w w' : World V H}

/-! ## One allocation at an address -/

/-- Whoever refers to an address refers to one allocation. -/
def World.Distinct (w : World V H) : Prop :=
  ∀ x ∈ w.allocations, ∀ y ∈ w.allocations, x.address = y.address → x = y

theorem World.Distinct.mono (h : w.Distinct)
    (hfewer : ∀ value ∈ w'.allocations, value ∈ w.allocations) : w'.Distinct :=
  fun x hx y hy => h x (hfewer x hx) y (hfewer y hy)

/-- A value at a free address joins the allocations. -/
theorem World.Distinct.add {value : Allocation V} {rows : List (Nat × Nat)} (h : w.Distinct)
    (hfree : w.Free value.address rows)
    (hmore : ∀ other ∈ w'.allocations, other = value ∨ other ∈ w.allocations) : w'.Distinct := by
  intro x hx y hy haddress
  rcases hmore x hx with rfl | hx <;> rcases hmore y hy with rfl | hy
  · rfl
  · exact absurd haddress.symm (hfree.1 y hy)
  · exact absurd haddress (hfree.1 x hx)
  · exact h x hx y hy haddress

theorem mem_setEntry {entry other : Entry V H} : other ∈ (w.setEntry entry).live ↔
    ∃ old ∈ w.live, (if old.id = entry.id then entry else old) = other := by
  simp only [World.setEntry, List.mem_map]

theorem setEntry_ids (entry : Entry V H) :
    (w.setEntry entry).live.map Entry.id = w.live.map Entry.id := by
  rw [World.setEntry, List.map_map]
  apply List.map_congr_left
  intro other hother
  dsimp only [Function.comp_apply]
  split
  · next hid => exact hid.symm
  · rfl

/-- With an entry set, only the entry's own value can be new. -/
theorem allocations_setEntry {entry : Entry V H} :
    ∀ value ∈ (w.setEntry entry).allocations,
      entry.resident = some value ∨ value ∈ w.allocations := by
  intro value hvalue
  rw [mem_allocations] at hvalue
  rcases hvalue with ⟨other, hother, hresident⟩ | hrest
  · obtain ⟨old, hold, hother⟩ := mem_setEntry.mp hother
    split at hother
    · subst hother
      exact .inl hresident
    · subst hother
      exact .inr (mem_allocations.mpr (.inl ⟨_, hold, hresident⟩))
  · exact .inr (mem_allocations.mpr (.inr hrest))

theorem releaseEntry_live (id : Nat) : (w.releaseEntry id).live.Sublist w.live := by
  unfold World.releaseEntry
  split
  · exact .refl _
  · split
    · exact .refl _
    · exact List.filter_sublist

theorem allocations_releaseEntry (id : Nat) :
    ∀ value ∈ (w.releaseEntry id).allocations, value ∈ w.allocations := by
  intro value hvalue
  unfold World.releaseEntry at hvalue
  split at hvalue
  · exact hvalue
  · split at hvalue
    · exact hvalue
    · next entry hentry =>
        have hlive := (mem_live_of_entry hentry).1
        rw [mem_allocations] at hvalue ⊢
        rcases hvalue with ⟨other, hother, hresident⟩ | ⟨dropped, hdropped, hresident⟩ | hclient
        · exact .inl ⟨other, List.mem_of_mem_filter hother, hresident⟩
        · rcases List.mem_append.mp hdropped with hold | hnew
          · exact .inr (.inl ⟨dropped, hold, hresident⟩)
          · obtain ⟨own, hown, rfl⟩ := Option.map_eq_some_iff.mp (Option.mem_toList.mp hnew)
            -- What waits to be freed is the entry's own value.
            obtain ⟨footprint, -, rfl⟩ := Option.map_eq_some_iff.mp hresident
            exact .inl ⟨entry, hlive, hown⟩
        · exact .inr (.inr hclient)

theorem allocations_register {value : Allocation V} {residentBytes : Nat} {codec : Codec V} :
    ∀ other ∈ (w.register value residentBytes codec).allocations,
      other = value ∨ other ∈ w.allocations := by
  intro other hother
  unfold World.register at hother
  split at hother
  · exact .inr hother
  · rw [mem_allocations] at hother
    rcases hother with ⟨entry, hentry, hresident⟩ | ⟨dropped, hdropped, hresident⟩ | hclient
    · rcases List.mem_append.mp hentry with hold | hnew
      · exact .inr (mem_allocations.mpr (.inl ⟨entry, hold, hresident⟩))
      · obtain rfl := List.mem_singleton.mp hnew
        exact .inl (Option.some.inj hresident).symm
    · dsimp only at hdropped
      rw [(charge_sameIndex w.state residentBytes value.footprint).dropQueue] at hdropped
      exact .inr (mem_allocations.mpr (.inr (.inl ⟨dropped, hdropped, hresident⟩)))
    · exact .inr (mem_allocations.mpr (.inr (.inr hclient)))

theorem allocations_reload {entry : Entry V H} {value : Allocation V} :
    ∀ other ∈ (w.reload entry value).allocations, other = value ∨ other ∈ w.allocations := by
  intro other hother
  rcases allocations_setEntry other hother with hown | hold
  · exact .inl (Option.some.inj hown).symm
  · refine .inr ?_
    rw [mem_allocations] at hold ⊢
    dsimp only at hold
    rw [(charge_sameIndex _ entry.bytes value.footprint).dropQueue] at hold
    exact hold

theorem unload_eq_some {entry : Entry V H} {released : Nat} (h : w.unload entry = some (w', released)) :
    ∃ state, release w.state entry.bytes entry.rowFootprint = some (state, released) ∧
      w' = World.setEntry
        { w with state := { state with
          byAddress := Function.update state.byAddress entry.address none
          spilledCount := state.spilledCount + 1 } }
        { entry with rowFootprint := none, resident := none } := by
  obtain ⟨⟨state, bytes⟩, hrelease, h⟩ := Option.bind_eq_some_iff.mp h
  cases h
  exact ⟨state, hrelease, rfl⟩

theorem unload_of_release {entry : Entry V H} {state : StoreState V} {released : Nat}
    (h : release w.state entry.bytes entry.rowFootprint = some (state, released)) :
    w.unload entry = some (World.setEntry
      { w with state := { state with
        byAddress := Function.update state.byAddress entry.address none
        spilledCount := state.spilledCount + 1 } }
      { entry with rowFootprint := none, resident := none }, released) := by
  rw [World.unload, h]
  rfl

theorem allocations_unload {entry : Entry V H} {released : Nat}
    (h : w.unload entry = some (w', released)) :
    ∀ value ∈ w'.allocations, value ∈ w.allocations := by
  obtain ⟨state, hrelease, rfl⟩ := unload_eq_some h
  intro value hvalue
  rcases allocations_setEntry value hvalue with hown | hold
  · cases hown
  · rw [mem_allocations] at hold ⊢
    dsimp only at hold
    rw [(release_sameIndex hrelease).dropQueue] at hold
    exact hold

theorem allocations_settle (h : Settle w w') : ∀ value ∈ w'.allocations, value ∈ w.allocations := by
  cases h with
  | quiet hbooks =>
      intro value hvalue
      rw [mem_allocations] at hvalue ⊢
      dsimp only at hvalue
      rw [hbooks.dropQueue] at hvalue
      exact hvalue
  | drain hdrain => exact allocations_drain hdrain

/-- A trim brings no allocation. -/
theorem allocations_trim (h : Trim platform w w') :
    ∀ value ∈ w'.allocations, value ∈ w.allocations := by
  cases h with
  | settle hsettle => exact allocations_settle hsettle
  | prune => exact fun _ hvalue => hvalue
  | put left => exact fun _ hvalue => hvalue
  | unload _ _ _ _ hunload =>
      intro value hvalue
      exact allocations_unload hunload value hvalue

/-- A move brings at most one allocation, where the allocator has free space. -/
theorem allocations_move [DecidableEq H] (hmove : Move platform w w') :
    (∀ value ∈ w'.allocations, value ∈ w.allocations) ∨
      ∃ value : Allocation V, w.Free value.address value.rows ∧
        ∀ other ∈ w'.allocations, other = value ∨ other ∈ w.allocations := by
  cases hmove with
  | settle hsettle => exact .inl (allocations_settle hsettle)
  | @allocate value hfree =>
      refine .inr ⟨value, hfree, ?_⟩
      intro other hother
      rw [mem_allocations] at hother
      rcases hother with hlive | hdropped | hlease | hshared
      · exact .inr (mem_allocations.mpr (.inl hlive))
      · exact .inr (mem_allocations.mpr (.inr (.inl hdropped)))
      · exact .inr (mem_allocations.mpr (.inr (.inr (.inl hlease))))
      · -- the shared list is the only place that gained a value
        rcases List.mem_append.mp hshared with hold | hnew
        · exact .inr (mem_allocations.mpr (.inr (.inr (.inr hold))))
        · exact .inl (List.mem_singleton.mp hnew)
  | share hvalue =>
      left
      intro other hother
      rw [mem_allocations] at hother ⊢
      rcases hother with hlive | hdropped | hlease | hshared
      · exact .inl hlive
      · exact .inr (.inl hdropped)
      · exact .inr (.inr (.inl hlease))
      · rcases List.mem_append.mp hshared with hold | hnew
        · exact .inr (.inr (.inr hold))
        · obtain rfl := List.mem_singleton.mp hnew
          rcases hvalue with hlent | hshared
          · exact .inr (.inr (.inl (List.mem_map.mp hlent)))
          · exact .inr (.inr (.inr hshared))
  | releaseShared shared =>
      left
      intro other hother
      rw [mem_allocations] at hother ⊢
      exact hother.imp_right (Or.imp_right (Or.imp_right List.mem_of_mem_eraseIdx))
  | publish hvalue residentBytes codec =>
      left
      intro other hother
      rw [mem_allocations]
      rcases allocations_register other hother with rfl | hold
      · exact .inr (.inr (.inr (List.mem_of_getElem? hvalue)))
      · rw [mem_allocations] at hold
        exact hold.imp_right (Or.imp_right (Or.imp_right List.mem_of_mem_eraseIdx))
  | cloneHandle hhandle => exact .inl fun _ hvalue => hvalue
  | dropHandle hhandle => exact .inl (allocations_releaseEntry _)
  | dropLease hlease =>
      left
      intro other hother
      have hold := allocations_releaseEntry _ other hother
      rw [mem_allocations] at hold ⊢
      rcases hold with hlive | hdropped | ⟨held, hheld, hvalue⟩ | hshared
      · exact .inl hlive
      · exact .inr (.inl hdropped)
      · exact .inr (.inr (.inl ⟨held, List.mem_of_mem_eraseIdx hheld, hvalue⟩))
      · exact .inr (.inr (.inr hshared))
  | @reload entry value answer hlive hspilled hvalue hfree =>
      exact .inr ⟨value, hfree, allocations_reload⟩
  | lend hlive hresident =>
      left
      intro other hother
      rcases allocations_setEntry other hother with hown | hold
      · exact mem_allocations.mpr (.inl ⟨_, hlive, hown⟩)
      · rw [mem_allocations] at hold ⊢
        rcases hold with hlive | hdropped | ⟨held, hheld, hvalue⟩ | hshared
        · exact .inl hlive
        · exact .inr (.inl hdropped)
        · -- the new lease holds the value its entry keeps resident
          rcases List.mem_append.mp hheld with hheld | hnew
          · exact .inr (.inr (.inl ⟨held, hheld, hvalue⟩))
          · obtain rfl := List.mem_singleton.mp hnew
            exact .inl ⟨_, hlive, hvalue ▸ hresident⟩
        · exact .inr (.inr (.inr hshared))
  | markCold hlive =>
      left
      intro other hother
      rcases allocations_setEntry other hother with hown | hold
      · exact mem_allocations.mpr (.inl ⟨_, hlive, hown⟩)
      · exact hold

theorem distinct_move [DecidableEq H] (h : w.Distinct) (hmove : Move platform w w') :
    w'.Distinct := by
  rcases allocations_move hmove with hfewer | ⟨value, hfree, hmore⟩
  · exact h.mono hfewer
  · exact h.add hfree hmore

/-! ## The index -/

/-- An address leads to a living entry exactly where the entry's value lies. -/
structure World.Indexed (w : World V H) : Prop where
  ids : (w.live.map Entry.id).Nodup
  fresh : ∀ entry ∈ w.live, entry.id < w.nextPayloadId
  mapped : ∀ address id, w.state.byAddress address = some id → id < w.nextPayloadId
  found : ∀ entry ∈ w.live, ∀ value ∈ entry.resident,
    entry.address = value.address ∧ w.state.byAddress value.address = some entry.id
  leads : ∀ entry ∈ w.live, ∀ address, w.state.byAddress address = some entry.id →
    ∃ value ∈ entry.resident, value.address = address

theorem eq_of_ids {entry other : Entry V H} (hids : (w.live.map Entry.id).Nodup)
    (hentry : entry ∈ w.live) (hother : other ∈ w.live) (hid : other.id = entry.id) :
    other = entry :=
  List.inj_on_of_nodup_map hids hother hentry hid

theorem entry?_eq_some (hids : (w.live.map Entry.id).Nodup) {entry : Entry V H}
    (hentry : entry ∈ w.live) : w.entry? entry.id = some entry := by
  have hfound : (w.entry? entry.id).isSome := by
    rw [World.entry?, List.find?_isSome]
    exact ⟨entry, hentry, by simp⟩
  obtain ⟨other, hother⟩ := Option.isSome_iff_exists.mp hfound
  obtain ⟨hlive, hid⟩ := mem_live_of_entry hother
  rw [hother, eq_of_ids hids hentry hlive hid]

/-- Fewer entries under the same addresses. -/
theorem World.Indexed.mono (h : w.Indexed) (hlive : w'.live.Sublist w.live)
    (haddress : w'.state.byAddress = w.state.byAddress)
    (hnext : w'.nextPayloadId = w.nextPayloadId) : w'.Indexed where
  ids := h.ids.sublist (hlive.map Entry.id)
  fresh := fun entry hentry => hnext ▸ h.fresh entry (hlive.subset hentry)
  mapped := fun address id hid => hnext ▸ h.mapped address id (haddress ▸ hid)
  found := fun entry hentry value hvalue => haddress ▸ h.found entry (hlive.subset hentry) value hvalue
  leads := fun entry hentry address hid => h.leads entry (hlive.subset hentry) address (haddress ▸ hid)

/-- An entry is set to one whose value lies where the entry's value lay. -/
theorem World.Indexed.setEntry {entry changed : Entry V H} (h : w.Indexed)
    (hlive : entry ∈ w.live) (hid : changed.id = entry.id)
    (haddress : changed.address = entry.address) (hresident : changed.resident = entry.resident) :
    (w.setEntry changed).Indexed where
  ids := by
    rw [setEntry_ids]
    exact h.ids
  fresh := by
    intro other hother
    obtain ⟨old, hold, rfl⟩ := mem_setEntry.mp hother
    split
    · exact hid ▸ h.fresh entry hlive
    · exact h.fresh old hold
  mapped := h.mapped
  found := by
    intro other hother value hvalue
    obtain ⟨old, hold, rfl⟩ := mem_setEntry.mp hother
    split at hvalue
    · next heq =>
        rw [if_pos heq, haddress, hid]
        exact h.found entry hlive value (hresident ▸ hvalue)
    · next hne =>
        rw [if_neg hne]
        exact h.found old hold value hvalue
  leads := by
    intro other hother address hmaps
    obtain ⟨old, hold, rfl⟩ := mem_setEntry.mp hother
    split at hmaps
    · next heq =>
        rw [if_pos heq, hresident]
        exact h.leads entry hlive address (hid ▸ hmaps)
    · next hne =>
        rw [if_neg hne]
        exact h.leads old hold address hmaps

theorem World.Indexed.prune (h : w.Indexed) : w.prune.Indexed where
  ids := h.ids
  fresh := h.fresh
  mapped := by
    intro address id hid
    exact h.mapped address id (Option.filter_eq_some_iff.mp hid).1
  found := by
    intro entry hentry value hvalue
    obtain ⟨haddress, hmaps⟩ := h.found entry hentry value hvalue
    refine ⟨haddress, Option.filter_eq_some_iff.mpr ⟨hmaps, ?_⟩⟩
    rw [entry?_eq_some h.ids hentry]
    rfl
  leads := by
    intro entry hentry address hid
    exact h.leads entry hentry address (Option.filter_eq_some_iff.mp hid).1

/-- The address that an eviction forgets is the entry's own. -/
theorem World.Indexed.unload {entry : Entry V H} {value : Allocation V} {digest : H}
    {released : Nat} (h : w.Indexed) (hlive : entry ∈ w.live)
    (hresident : entry.resident = some value)
    (hunload : w.unload { entry with integrity := some digest } = some (w', released)) :
    w'.Indexed := by
  obtain ⟨state, hrelease, rfl⟩ := unload_eq_some hunload
  have hsame := (release_sameIndex hrelease).byAddress
  have hown := h.found entry hlive value hresident
  have hkept : ∀ other ∈ w.live, other.id ≠ entry.id → ∀ address,
      w.state.byAddress address = some other.id → address ≠ entry.address := by
    intro other hother hne address hmaps heq
    rw [heq, hown.1, hown.2] at hmaps
    exact hne (Option.some.inj hmaps).symm
  exact {
    ids := by
      rw [setEntry_ids]
      exact h.ids
    fresh := by
      intro other hother
      obtain ⟨old, hold, rfl⟩ := mem_setEntry.mp hother
      split
      · exact h.fresh entry hlive
      · exact h.fresh old hold
    mapped := by
      intro address id hid
      have hid : Function.update state.byAddress entry.address none address = some id := hid
      by_cases heq : address = entry.address
      · rw [heq, Function.update_self] at hid
        cases hid
      · rw [Function.update_of_ne heq, hsame] at hid
        exact h.mapped address id hid
    found := by
      intro other hother value' hvalue'
      obtain ⟨old, hold, rfl⟩ := mem_setEntry.mp hother
      split at hvalue'
      · cases hvalue'
      · next hne =>
          rw [if_neg hne]
          obtain ⟨haddress, hmaps⟩ := h.found old hold value' hvalue'
          refine ⟨haddress, ?_⟩
          show Function.update state.byAddress entry.address none value'.address = some old.id
          rw [Function.update_of_ne (hkept old hold hne _ hmaps), hsame]
          exact hmaps
    leads := by
      intro other hother address hmaps
      have hmaps : Function.update state.byAddress entry.address none address = some other.id :=
        hmaps
      have hne : address ≠ entry.address := by
        intro heq
        rw [heq, Function.update_self] at hmaps
        cases hmaps
      rw [Function.update_of_ne hne, hsame] at hmaps
      obtain ⟨old, hold, rfl⟩ := mem_setEntry.mp hother
      split at hmaps
      · -- The entry's own address was the only one that led to it.
        obtain ⟨found, hfound, rfl⟩ := h.leads entry hlive address hmaps
        rw [Option.mem_def, hresident] at hfound
        cases hfound
        exact absurd hown.1.symm hne
      · next hother' =>
          rw [if_neg hother']
          exact h.leads old hold address hmaps }

/-- A value comes back at an address at which no living entry has its own. -/
theorem World.Indexed.reload {entry : Entry V H} {value : Allocation V} {rows : List (Nat × Nat)}
    (h : w.Indexed) (hlive : entry ∈ w.live) (hspilled : entry.resident = none)
    (hfree : w.Free value.address rows) : (w.reload entry value).Indexed := by
  -- a spilled entry holds no value, so its old address no longer leads to it
  have hstale : w.state.byAddress entry.address ≠ some entry.id := by
    intro hmaps
    obtain ⟨found, hfound, -⟩ := h.leads entry hlive entry.address hmaps
    rw [hspilled] at hfound
    cases hfound
  have hindex : (w.reload entry value).state.byAddress =
      Function.update w.state.byAddress value.address (some entry.id) := by
    simp only [World.reload, World.setEntry, if_neg hstale,
      (charge_sameIndex _ entry.bytes value.footprint).byAddress]
  -- a free address is the address of no resident value
  have helsewhere : ∀ other ∈ w.live, ∀ address, w.state.byAddress address = some other.id →
      address ≠ value.address := by
    intro other hother address hmaps heq
    obtain ⟨found, hfound, haddress⟩ := h.leads other hother address hmaps
    exact hfree.1 found (mem_allocations.mpr (.inl ⟨other, hother, hfound⟩)) (haddress.trans heq)
  exact {
    ids := by
      rw [World.reload, setEntry_ids]
      exact h.ids
    fresh := by
      intro other hother
      obtain ⟨old, hold, rfl⟩ := mem_setEntry.mp hother
      split
      · exact h.fresh entry hlive
      · exact h.fresh old hold
    mapped := by
      intro address id hid
      rw [hindex] at hid
      by_cases heq : address = value.address
      · rw [heq, Function.update_self] at hid
        exact Option.some.inj hid ▸ h.fresh entry hlive
      · rw [Function.update_of_ne heq] at hid
        exact h.mapped address id hid
    found := by
      intro other hother found hfound
      rw [hindex]
      obtain ⟨old, hold, rfl⟩ := mem_setEntry.mp hother
      split at hfound
      · next heq =>
          cases hfound
          rw [if_pos heq]
          exact ⟨rfl, Function.update_self ..⟩
      · next hne =>
          rw [if_neg hne]
          obtain ⟨haddress, hmaps⟩ := h.found old hold found hfound
          refine ⟨haddress, ?_⟩
          rw [Function.update_of_ne (helsewhere old hold _ hmaps)]
          exact hmaps
    leads := by
      intro other hother address hmaps
      rw [hindex] at hmaps
      obtain ⟨old, hold, rfl⟩ := mem_setEntry.mp hother
      split at hmaps
      · next heq =>
          rw [if_pos heq]
          by_cases haddress : address = value.address
          · exact ⟨value, rfl, haddress.symm⟩
          · have hmaps : Function.update w.state.byAddress value.address (some entry.id) address =
                some entry.id := hmaps
            rw [Function.update_of_ne haddress] at hmaps
            obtain ⟨found, hfound, -⟩ := h.leads entry hlive address hmaps
            rw [hspilled] at hfound
            cases hfound
      · next hne =>
          rw [if_neg hne]
          have haddress : address ≠ value.address := by
            intro heq
            rw [heq, Function.update_self] at hmaps
            exact hne (Option.some.inj hmaps).symm
          rw [Function.update_of_ne haddress] at hmaps
          exact h.leads old hold address hmaps }

theorem existing_eq_some {address : Nat} {entry : Entry V H} (h : w.existing address = some entry) :
    entry ∈ w.live ∧ ∃ value, entry.resident = some value ∧ value.address = address := by
  obtain ⟨hentry, hvalue⟩ := Option.filter_eq_some_iff.mp h
  obtain ⟨id, -, hentry⟩ := Option.bind_eq_some_iff.mp hentry
  refine ⟨(mem_live_of_entry hentry).1, ?_⟩
  cases hresident : entry.resident with
  | none =>
      rw [hresident] at hvalue
      cases hvalue
  | some value =>
      rw [hresident] at hvalue
      exact ⟨value, rfl, of_decide_eq_true hvalue⟩

/-- An entry is found by its value's address. -/
theorem World.Indexed.existing {entry : Entry V H} {value : Allocation V} (h : w.Indexed)
    (hlive : entry ∈ w.live) (hresident : entry.resident = some value) :
    w.existing value.address = some entry := by
  have hmaps := (h.found entry hlive value hresident).2
  rw [World.existing, hmaps, Option.bind_some, entry?_eq_some h.ids hlive, Option.filter_some,
    hresident, if_pos (by simp)]

theorem World.Indexed.register {value : Allocation V} {residentBytes : Nat} {codec : Codec V}
    (h : w.Indexed) : (w.register value residentBytes codec).Indexed := by
  unfold World.register
  split
  · exact h.mono (List.Sublist.refl _) rfl rfl
  · next hnone =>
      have hsame := (charge_sameIndex w.state residentBytes value.footprint).byAddress
      -- an indexed value at this address would have been found before registering
      have helsewhere : ∀ entry ∈ w.live, ∀ address,
          w.state.byAddress address = some entry.id → address ≠ value.address := by
        intro entry hentry address hmaps heq
        obtain ⟨found, hfound, haddress⟩ := h.leads entry hentry address hmaps
        have hexisting := h.existing hentry hfound
        rw [haddress, heq, hnone] at hexisting
        cases hexisting
      exact {
        ids := by
          rw [List.map_append, List.nodup_append]
          refine ⟨h.ids, List.nodup_singleton _, ?_⟩
          intro id hid new hnew heq
          obtain ⟨entry, hentry, rfl⟩ := List.mem_map.mp hid
          obtain rfl := List.mem_singleton.mp hnew
          exact absurd heq (h.fresh entry hentry).ne
        fresh := by
          intro entry hentry
          rcases List.mem_append.mp hentry with hold | hnew
          · exact Nat.lt_succ_of_lt (h.fresh entry hold)
          · obtain rfl := List.mem_singleton.mp hnew
            exact Nat.lt_succ_self _
        mapped := by
          intro address id hid
          dsimp only at hid
          rw [hsame] at hid
          by_cases heq : address = value.address
          · rw [heq, Function.update_self] at hid
            exact Option.some.inj hid ▸ Nat.lt_succ_self _
          · rw [Function.update_of_ne heq] at hid
            exact Nat.lt_succ_of_lt (h.mapped address id hid)
        found := by
          intro entry hentry found hfound
          dsimp only
          rw [hsame]
          rcases List.mem_append.mp hentry with hold | hnew
          · obtain ⟨haddress, hmaps⟩ := h.found entry hold found hfound
            refine ⟨haddress, ?_⟩
            rw [Function.update_of_ne (helsewhere entry hold _ hmaps)]
            exact hmaps
          · obtain rfl := List.mem_singleton.mp hnew
            cases hfound
            exact ⟨rfl, Function.update_self ..⟩
        leads := by
          intro entry hentry address hmaps
          dsimp only at hmaps
          rw [hsame] at hmaps
          by_cases heq : address = value.address
          · rw [heq, Function.update_self] at hmaps
            have hid : w.nextPayloadId = entry.id := Option.some.inj hmaps
            rcases List.mem_append.mp hentry with hold | hnew
            · exact absurd hid.symm (h.fresh entry hold).ne
            · obtain rfl := List.mem_singleton.mp hnew
              exact ⟨value, rfl, heq.symm⟩
          · rw [Function.update_of_ne heq] at hmaps
            rcases List.mem_append.mp hentry with hold | hnew
            · exact h.leads entry hold address hmaps
            · obtain rfl := List.mem_singleton.mp hnew
              exact absurd (h.mapped address _ hmaps) (Nat.lt_irrefl _) }

theorem World.Indexed.settle (h : w.Indexed) (hsettle : Settle w w') : w'.Indexed := by
  cases hsettle with
  | quiet hbooks => exact h.mono (List.Sublist.refl _) hbooks.byAddress rfl
  | drain hdrain =>
      obtain ⟨state, hstate, rfl⟩ := drain_eq_some hdrain
      exact h.mono (List.Sublist.refl _) (drainDroppedResidents_index hstate).2.1 rfl

theorem releaseEntry_byAddress (id : Nat) :
    (w.releaseEntry id).state.byAddress = w.state.byAddress := by
  unfold World.releaseEntry
  split
  · rfl
  · split <;> rfl

theorem releaseEntry_nextPayloadId (id : Nat) :
    (w.releaseEntry id).nextPayloadId = w.nextPayloadId := by
  unfold World.releaseEntry
  split
  · rfl
  · split <;> rfl

theorem indexed_move [DecidableEq H] (h : w.Indexed) (hmove : Move platform w w') : w'.Indexed := by
  cases hmove with
  | settle hsettle => exact h.settle hsettle
  | allocate hfree => exact h.mono (List.Sublist.refl _) rfl rfl
  | share hvalue => exact h.mono (List.Sublist.refl _) rfl rfl
  | releaseShared shared => exact h.mono (List.Sublist.refl _) rfl rfl
  | publish hvalue residentBytes codec =>
      exact World.Indexed.register (h.mono (List.Sublist.refl _) rfl rfl)
  | cloneHandle hhandle => exact h.mono (List.Sublist.refl _) rfl rfl
  | dropHandle hhandle =>
      exact h.mono (releaseEntry_live _) (releaseEntry_byAddress _) (releaseEntry_nextPayloadId _)
  | dropLease hlease =>
      exact h.mono (releaseEntry_live _) (releaseEntry_byAddress _) (releaseEntry_nextPayloadId _)
  | reload hlive hspilled hvalue hfree => exact h.reload hlive hspilled hfree
  | @lend entry value hlive hresident =>
      have hlent : World.Indexed { w with
          leases := w.leases ++ [⟨entry.id, value⟩]
          nextPayloadTouch := w.nextPayloadTouch + 1 } := h.mono (List.Sublist.refl _) rfl rfl
      exact hlent.setEntry hlive rfl rfl rfl
  | markCold hlive => exact h.setEntry hlive rfl rfl rfl

theorem indexed_trim (h : w.Indexed) (htrim : Trim platform w w') : w'.Indexed := by
  cases htrim with
  | settle hsettle => exact h.settle hsettle
  | prune => exact h.prune
  | put left hlive hnone => exact h.mono (List.Sublist.refl _) rfl rfl
  | unload hlive hresident _ _ hunload =>
      exact (h.unload hlive hresident hunload).mono (List.Sublist.refl _) rfl rfl

theorem Reachable.indexed [DecidableEq H] (h : Reachable platform w) : w.Indexed := by
  refine h.invariant ?_ (fun _ _ => indexed_move) (fun _ _ => indexed_trim)
  intro budget
  exact {
    ids := List.nodup_nil
    fresh := fun _ hentry => absurd hentry List.not_mem_nil
    mapped := nofun
    found := fun _ hentry => absurd hentry List.not_mem_nil
    leads := fun _ hentry => absurd hentry List.not_mem_nil }

theorem Reachable.distinct [DecidableEq H] (h : Reachable platform w) : w.Distinct := by
  refine h.invariant ?_ (fun _ _ => distinct_move) (fun _ _ hw htrim => hw.mono (allocations_trim htrim))
  intro budget value hvalue
  exact absurd hvalue List.not_mem_nil

end Chronicle.Payloads
