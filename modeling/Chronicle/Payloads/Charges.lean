import Chronicle.Payloads.Republish

/-!
# The charges of the store

The resident bytes are the charges of the values in memory, and of those that are dropped and wait
to be taken off the books. The rows of several tables are charged once.
-/

namespace Chronicle.Payloads

open Relation Library.SharedCharges

variable {V H : Type} {platform : Platform V H} {w w' : World V H}

/-- What a value is charged for. -/
def holdingOf (bytes : Nat) : Option RowTableFootprint → Holding Nat
  | some footprint => { own := footprint.tableBytes, parts := footprint.rows }
  | none => { own := bytes }

def Entry.holding (entry : Entry V H) : Option (Holding Nat) :=
  entry.resident.map fun _ => holdingOf entry.bytes entry.rowFootprint

def DroppedResident.holding (dropped : DroppedResident V) : Holding Nat :=
  holdingOf dropped.bytes dropped.rowFootprint

/-- The values in memory and those that wait to be taken off the books. -/
def World.holdings (w : World V H) : Multiset (Holding Nat) :=
  ↑(w.live.filterMap Entry.holding ++ w.state.dropQueue.map DroppedResident.holding)

/-- One row has the same bytes in every table. -/
def World.RowsAgree (w : World V H) : Prop :=
  ∀ x ∈ w.allocations, ∀ y ∈ w.allocations, ∀ row ∈ x.rows, ∀ row' ∈ y.rows,
    row.1 = row'.1 → row = row'

/-- The books agree with what is in memory. -/
structure World.Ledger (w : World V H) : Prop where
  counts : Accounts w.state.sharedRows (heldParts w.holdings)
  charged : w.state.residentBytes = total sharedRowMapBytes w.holdings
  footprint : ∀ entry ∈ w.live, ∀ value ∈ entry.resident, entry.rowFootprint = value.footprint
  dropped : ∀ waiting ∈ w.state.dropQueue, ∀ footprint ∈ waiting.rowFootprint,
    ∃ value ∈ waiting.resident, value.footprint = some footprint

/-! ## Charging and releasing one value -/

theorem charge_spec {state : StoreState V} {bytes : Nat} {footprint : Option RowTableFootprint}
    {holdings : Multiset (Holding Nat)} (hcounts : Accounts state.sharedRows (heldParts holdings))
    (hrows : Consistent (heldParts (holdingOf bytes footprint ::ₘ holdings))) :
    Accounts (charge state bytes footprint).1.sharedRows
        (heldParts (holdingOf bytes footprint ::ₘ holdings)) ∧
      total sharedRowMapBytes (holdingOf bytes footprint ::ₘ holdings) =
        total sharedRowMapBytes holdings + (charge state bytes footprint).2 ∧
      (charge state bytes footprint).1.residentBytes = state.residentBytes := by
  obtain ⟨hadded, htotal⟩ := total_cons_of_add sharedRowMapBytes hcounts hrows
  cases footprint with
  | none => exact ⟨hadded, htotal, rfl⟩
  | some footprint => exact ⟨hadded, htotal, rfl⟩

theorem release_spec {state : StoreState V} {bytes : Nat} {footprint : Option RowTableFootprint}
    {holdings : Multiset (Holding Nat)}
    (hcounts : Accounts state.sharedRows (heldParts (holdingOf bytes footprint ::ₘ holdings)))
    (hrows : Consistent (heldParts (holdingOf bytes footprint ::ₘ holdings))) :
    ∃ state' released, release state bytes footprint = some (state', released) ∧
      Accounts state'.sharedRows (heldParts holdings) ∧
      total sharedRowMapBytes (holdingOf bytes footprint ::ₘ holdings) =
        total sharedRowMapBytes holdings + released ∧
      state'.residentBytes = state.residentBytes := by
  obtain ⟨removed, hremoved, haccounts, htotal⟩ :=
    total_cons_of_remove sharedRowMapBytes hcounts hrows
  cases footprint with
  | none =>
      cases hremoved
      exact ⟨state, bytes, rfl, haccounts, htotal, rfl⟩
  | some footprint =>
      have hrelease : release state bytes (some footprint) =
          some ({ state with sharedRows := removed.1 }, footprint.tableBytes + removed.2) := by
        have hremoved : removeParts sharedRowMapBytes state.sharedRows footprint.rows =
          some removed := hremoved
        rw [release, removeRowFootprint, hremoved]
        rfl
      exact ⟨_, _, hrelease, haccounts, htotal, rfl⟩

/-! ## Holdings -/

/-- The rows that are charged are rows of allocations. -/
theorem World.consistent_holdings
    (hfootprint : ∀ entry ∈ w.live, ∀ value ∈ entry.resident, entry.rowFootprint = value.footprint)
    (hdropped : ∀ waiting ∈ w.state.dropQueue, ∀ footprint ∈ waiting.rowFootprint,
      ∃ value ∈ waiting.resident, value.footprint = some footprint)
    (hagree : w.RowsAgree) : Consistent (heldParts w.holdings) := by
  have hrow : ∀ row ∈ heldParts w.holdings, ∃ value ∈ w.allocations, row ∈ value.rows := by
    intro row hrow
    obtain ⟨holding, hholding, hpart⟩ := Multiset.mem_bind.mp hrow
    rcases List.mem_append.mp (Multiset.mem_coe.mp hholding) with hlive | hqueue
    · obtain ⟨entry, hentry, hown⟩ := List.mem_filterMap.mp hlive
      obtain ⟨value, hvalue, rfl⟩ := Option.map_eq_some_iff.mp hown
      rw [hfootprint entry hentry value hvalue] at hpart
      refine ⟨value, mem_allocations.mpr (.inl ⟨entry, hentry, hvalue⟩), ?_⟩
      rw [Allocation.rows]
      cases hown : value.footprint with
      | none =>
          rw [hown] at hpart
          exact absurd hpart List.not_mem_nil
      | some footprint =>
          rw [hown] at hpart
          exact hpart
    · obtain ⟨waiting, hwaiting, rfl⟩ := List.mem_map.mp hqueue
      rw [DroppedResident.holding] at hpart
      cases hown : waiting.rowFootprint with
      | none =>
          rw [hown] at hpart
          exact absurd hpart List.not_mem_nil
      | some footprint =>
          obtain ⟨value, hvalue, hfound⟩ := hdropped waiting hwaiting footprint hown
          refine ⟨value, mem_allocations.mpr (.inr (.inl ⟨waiting, hwaiting, hvalue⟩)), ?_⟩
          rw [hown] at hpart
          rw [Allocation.rows, hfound]
          exact hpart
  intro x hx y hy
  obtain ⟨value, hvalue, hin⟩ := hrow x hx
  obtain ⟨value', hvalue', hin'⟩ := hrow y hy
  exact hagree value hvalue value' hvalue' x hin y hin'

/-- An entry among the others, and the world with it set or dropped. -/
theorem live_split {entry : Entry V H} (hids : (w.live.map Entry.id).Nodup)
    (hlive : entry ∈ w.live) : ∃ before after, w.live = before ++ entry :: after ∧
      (∀ changed : Entry V H, changed.id = entry.id →
        (w.setEntry changed).live = before ++ changed :: after) ∧
      w.live.filter (fun other => other.id ≠ entry.id) = before ++ after := by
  obtain ⟨before, after, hsplit⟩ := List.append_of_mem hlive
  have hothers : ∀ other ∈ before ++ after, other.id ≠ entry.id := by
    rw [hsplit, List.map_append, List.map_cons, List.nodup_middle, ← List.map_append] at hids
    intro other hother heq
    exact (List.nodup_cons.mp hids).1 (heq ▸ List.mem_map_of_mem hother)
  have hbefore : ∀ other ∈ before, other.id ≠ entry.id :=
    fun other hother => hothers other (List.mem_append_left _ hother)
  have hafter : ∀ other ∈ after, other.id ≠ entry.id :=
    fun other hother => hothers other (List.mem_append_right _ hother)
  refine ⟨before, after, hsplit, ?_, ?_⟩
  · intro changed hid
    have hkept : ∀ part : List (Entry V H), (∀ other ∈ part, other.id ≠ entry.id) →
        part.map (fun other => if other.id = changed.id then changed else other) = part := by
      intro part hpart
      refine (List.map_congr_left fun other hother => ?_).trans (List.map_id part)
      rw [hid]
      exact if_neg (hpart other hother)
    rw [World.setEntry]
    dsimp only
    rw [hsplit, List.map_append, List.map_cons, if_pos hid.symm, hkept before hbefore,
      hkept after hafter]
  · have hkept : ∀ part : List (Entry V H), (∀ other ∈ part, other.id ≠ entry.id) →
        part.filter (fun other => other.id ≠ entry.id) = part := by
      intro part hpart
      exact List.filter_eq_self.mpr fun other hother => decide_eq_true (hpart other hother)
    rw [hsplit, List.filter_append, List.filter_cons_of_neg (by simp), hkept before hbefore,
      hkept after hafter]

/-- The holding of an entry and those of the rest. -/
theorem holdings_split {entry : Entry V H} {before after : List (Entry V H)}
    (hsplit : w.live = before ++ entry :: after) :
    w.holdings = ↑entry.holding.toList + World.holdings { w with live := before ++ after } := by
  rw [World.holdings, World.holdings, hsplit, Multiset.coe_add, Multiset.coe_eq_coe,
    List.filterMap_append, List.filterMap_append]
  cases hholding : entry.holding with
  | none =>
      rw [List.filterMap_cons_none hholding]
      exact .refl _
  | some holding =>
      rw [List.filterMap_cons_some hholding]
      exact (List.perm_middle.append_right _)

/-! ## Moves keep the books -/

theorem World.RowsAgree.mono (h : w.RowsAgree)
    (hfewer : ∀ value ∈ w'.allocations, value ∈ w.allocations) : w'.RowsAgree :=
  fun x hx y hy => h x (hfewer x hx) y (hfewer y hy)

theorem World.RowsAgree.add {value : Allocation V} (h : w.RowsAgree)
    (hfree : w.Free value.address value.rows)
    (hmore : ∀ other ∈ w'.allocations, other = value ∨ other ∈ w.allocations) :
    w'.RowsAgree := by
  have hheld : ∀ other ∈ w.allocations, ∀ row ∈ other.rows,
      row ∈ value.rows ++ w.allocations.flatMap Allocation.rows := fun other hother row hrow =>
    List.mem_append_right _ (List.mem_flatMap.mpr ⟨other, hother, hrow⟩)
  intro x hx y hy row hrow row' hrow' hkey
  rcases hmore x hx with rfl | hx <;> rcases hmore y hy with rfl | hy
  · exact hfree.2 row hrow row' (List.mem_append_left _ hrow') hkey
  · exact hfree.2 row hrow row' (hheld y hy row' hrow') hkey
  · exact (hfree.2 row' hrow' row (hheld x hx row hrow) hkey.symm).symm
  · exact h x hx y hy row hrow row' hrow' hkey

theorem rowsAgree_move [DecidableEq H] (h : w.RowsAgree) (hmove : Move platform w w') :
    w'.RowsAgree := by
  rcases allocations_move hmove with hfewer | ⟨value, hfree, hmore⟩
  · exact h.mono hfewer
  · exact h.add hfree hmore

/-- What the books are about has not changed. -/
theorem World.Ledger.same (h : w.Ledger) (hlive : w'.live = w.live)
    (hqueue : w'.state.dropQueue = w.state.dropQueue)
    (hrows : w'.state.sharedRows = w.state.sharedRows)
    (hbytes : w'.state.residentBytes = w.state.residentBytes) : w'.Ledger := by
  have hholdings : w'.holdings = w.holdings := by rw [World.holdings, World.holdings, hlive, hqueue]
  exact {
    counts := by
      rw [hholdings, hrows]
      exact h.counts
    charged := by
      rw [hholdings, hbytes]
      exact h.charged
    footprint := hlive ▸ h.footprint
    dropped := hqueue ▸ h.dropped }

/-- An entry is set to one with the same holding. -/
theorem World.Ledger.setEntry {entry changed : Entry V H} (h : w.Ledger)
    (hids : (w.live.map Entry.id).Nodup) (hlive : entry ∈ w.live) (hid : changed.id = entry.id)
    (hresident : changed.resident = entry.resident) (hbytes : changed.bytes = entry.bytes)
    (hfootprint : changed.rowFootprint = entry.rowFootprint) : (w.setEntry changed).Ledger := by
  obtain ⟨before, after, hsplit, hset, -⟩ := live_split hids hlive
  have hholding : changed.holding = entry.holding := by
    rw [Entry.holding, Entry.holding, hresident, hbytes, hfootprint]
  have hholdings : (w.setEntry changed).holdings = w.holdings := by
    rw [holdings_split (hset changed hid), holdings_split hsplit, hholding]
    rfl
  exact {
    counts := by
      rw [hholdings]
      exact h.counts
    charged := by
      rw [hholdings]
      exact h.charged
    footprint := by
      intro other hother value hvalue
      obtain ⟨old, hold, rfl⟩ := mem_setEntry.mp hother
      split at hvalue
      · next heq =>
          rw [if_pos heq, hfootprint]
          exact h.footprint entry hlive value (hresident ▸ hvalue)
      · next hne =>
          rw [if_neg hne]
          exact h.footprint old hold value hvalue
    dropped := h.dropped }

/-- A value comes into memory and is charged. -/
theorem World.Ledger.add (h : w.Ledger) (entry : Entry V H) (value : Allocation V)
    (state : StoreState V) (hagree : w'.RowsAgree)
    (hholdings : w'.holdings = holdingOf entry.bytes entry.rowFootprint ::ₘ w.holdings)
    (hrows : state.sharedRows = w.state.sharedRows)
    (hbytes : state.residentBytes = w.state.residentBytes)
    (hresident : entry.resident = some value) (hfootprint : entry.rowFootprint = value.footprint)
    (hlive : ∀ other ∈ w'.live, other = entry ∨ other ∈ w.live)
    (hqueue : w'.state.dropQueue = w.state.dropQueue)
    (hrows' : w'.state.sharedRows =
      (charge state entry.bytes entry.rowFootprint).1.sharedRows)
    (hbytes' : w'.state.residentBytes =
      (charge state entry.bytes entry.rowFootprint).1.residentBytes +
        (charge state entry.bytes entry.rowFootprint).2) : w'.Ledger := by
  have hfootprints : ∀ other ∈ w'.live, ∀ found ∈ other.resident,
      other.rowFootprint = found.footprint := by
    intro other hother found hfound
    rcases hlive other hother with rfl | hold
    · rw [hresident] at hfound
      cases hfound
      exact hfootprint
    · exact h.footprint other hold found hfound
  have hdropped : ∀ waiting ∈ w'.state.dropQueue, ∀ footprint ∈ waiting.rowFootprint,
      ∃ value ∈ waiting.resident, value.footprint = some footprint := hqueue ▸ h.dropped
  -- That the rows agree is all that the sum of the charges asks of the books.
  have hconsistent : Consistent (heldParts w'.holdings) :=
    World.consistent_holdings hfootprints hdropped hagree
  rw [hholdings] at hconsistent
  have hcounts : Accounts state.sharedRows (heldParts w.holdings) := hrows ▸ h.counts
  obtain ⟨hadded, htotal, hkept⟩ := charge_spec hcounts hconsistent
  exact {
    counts := by
      rw [hholdings, hrows']
      exact hadded
    charged := by
      rw [hholdings, hbytes', hkept, hbytes, h.charged, htotal]
    footprint := hfootprints
    dropped := hdropped }

theorem World.Ledger.register {value : Allocation V} {residentBytes : Nat} {codec : Codec V}
    (h : w.Ledger) (hagree : (w.register value residentBytes codec).RowsAgree) :
    (w.register value residentBytes codec).Ledger := by
  unfold World.register at hagree ⊢
  split at hagree
  · exact h.same rfl rfl rfl rfl
  · next hnone =>
      have hindex := charge_sameIndex w.state residentBytes value.footprint
      have hsplit : ∀ entry : Entry V H, w.live ++ [entry] = w.live ++ entry :: [] := fun _ => rfl
      let entry : Entry V H := {
        id := w.nextPayloadId
        address := value.address
        lastUsed := w.nextPayloadTouch
        bytes := residentBytes
        rowFootprint := value.footprint
        resident := some value
        codec := codec
        integrity := none }
      refine h.add entry value w.state hagree ?_ rfl rfl rfl rfl ?_ ?_ rfl rfl
      · rw [holdings_split (hsplit _), World.holdings, World.holdings, List.append_nil]
        dsimp only
        rw [hindex.dropQueue]
        rfl
      · intro other hother
        rcases List.mem_append.mp hother with hold | hnew
        · exact .inr hold
        · exact .inl (List.mem_singleton.mp hnew)
      · exact hindex.dropQueue

theorem World.Ledger.reload {entry : Entry V H} {value : Allocation V} (h : w.Ledger)
    (hids : (w.live.map Entry.id).Nodup) (hlive : entry ∈ w.live)
    (hspilled : entry.resident = none) (hagree : (w.reload entry value).RowsAgree) :
    (w.reload entry value).Ledger := by
  obtain ⟨before, after, hsplit, hset, -⟩ := live_split hids hlive
  let state : StoreState V := { w.state with
    byAddress := if w.state.byAddress entry.address = some entry.id then
      Function.update w.state.byAddress entry.address none else w.state.byAddress }
  refine h.add (entry.refill value) value state hagree ?_ rfl rfl rfl rfl ?_ ?_ rfl rfl
  · have hown : entry.holding = none := by rw [Entry.holding, hspilled, Option.map_none]
    have hreloaded : (w.reload entry value).live = before ++ entry.refill value :: after :=
      hset (entry.refill value) rfl
    rw [holdings_split hreloaded, holdings_split hsplit, hown]
    rw [World.holdings, World.holdings]
    show _ + Multiset.ofList (_ ++ List.map _ (charge _ _ _).1.dropQueue) = _
    rw [(charge_sameIndex _ entry.bytes value.footprint).dropQueue]
    rfl
  · intro other hother
    obtain ⟨old, hold, rfl⟩ := mem_setEntry.mp hother
    split
    · exact .inl rfl
    · exact .inr hold
  · exact (charge_sameIndex _ entry.bytes value.footprint).dropQueue

/-- The holding of an entry that is dropped waits to be taken off the books. -/
theorem World.Ledger.releaseEntry (h : w.Ledger) (hids : (w.live.map Entry.id).Nodup) (id : Nat) :
    (w.releaseEntry id).Ledger := by
  unfold World.releaseEntry
  split
  · exact h
  · split
    · exact h
    · next entry hentry =>
        obtain ⟨hlive, rfl⟩ := mem_live_of_entry hentry
        obtain ⟨before, after, hsplit, -, hfilter⟩ := live_split hids hlive
        have hholdings : World.holdings { w with
            live := w.live.filter fun other => other.id ≠ entry.id
            stored := Function.update w.stored entry.id none
            state := { w.state with dropQueue := w.state.dropQueue ++ (entry.resident.map
              fun value => (⟨entry.bytes, entry.rowFootprint,
                entry.rowFootprint.map fun _ => value⟩ : DroppedResident V)).toList } } =
            w.holdings := by
          rw [holdings_split hsplit, World.holdings, World.holdings, hfilter]
          dsimp only
          rw [List.map_append, ← List.append_assoc, Multiset.coe_add, Multiset.coe_eq_coe]
          refine List.perm_append_comm.trans (.of_eq ?_)
          congr 1
          rw [Entry.holding]
          cases entry.resident <;> rfl
        exact {
          counts := by
            rw [hholdings]
            exact h.counts
          charged := by
            rw [hholdings]
            exact h.charged
          footprint := fun other hother => h.footprint other (List.mem_of_mem_filter hother)
          dropped := by
            intro waiting hwaiting footprint hfootprint
            rcases List.mem_append.mp hwaiting with hold | hnew
            · exact h.dropped waiting hold footprint hfootprint
            · obtain ⟨value, hvalue, rfl⟩ := Option.map_eq_some_iff.mp (Option.mem_toList.mp hnew)
              have hfootprint : entry.rowFootprint = some footprint := hfootprint
              refine ⟨value, ?_, ?_⟩
              · show (entry.rowFootprint.map fun _ => value) = some value
                rw [hfootprint, Option.map_some]
              · rw [← h.footprint entry hlive value hvalue, hfootprint] }

theorem foldlM_releaseDropped_spec {queue : List (DroppedResident V)} (state : StoreState V)
    {holdings : Multiset (Holding Nat)}
    (hcounts : Accounts state.sharedRows
      (heldParts (Multiset.ofList (queue.map DroppedResident.holding) + holdings)))
    (hrows : Consistent
      (heldParts (Multiset.ofList (queue.map DroppedResident.holding) + holdings)))
    (hbytes : state.residentBytes = total sharedRowMapBytes
      (Multiset.ofList (queue.map DroppedResident.holding) + holdings)) :
    ∃ state', queue.foldlM releaseDropped state = some state' ∧
      Accounts state'.sharedRows (heldParts holdings) ∧
      state'.residentBytes = total sharedRowMapBytes holdings := by
  induction queue generalizing state with
  | nil =>
      rw [List.map_nil, Multiset.coe_nil, Multiset.zero_add] at hcounts hbytes
      exact ⟨state, rfl, hcounts, hbytes⟩
  | cons dropped queue ih =>
      rw [List.map_cons, ← Multiset.cons_coe, Multiset.cons_add] at hcounts hrows hbytes
      obtain ⟨released, bytes, hrelease, haccounts, htotal, hkept⟩ := release_spec hcounts hrows
      have hrest : Consistent
          (heldParts (Multiset.ofList (queue.map DroppedResident.holding) + holdings)) :=
        hrows.mono (heldParts_subset (Multiset.le_cons_self _ _))
      have hleft : released.residentBytes - bytes = total sharedRowMapBytes
          (Multiset.ofList (queue.map DroppedResident.holding) + holdings) := by
        rw [hkept, hbytes, DroppedResident.holding, htotal, Nat.add_sub_cancel]
      obtain ⟨state', hfold, hfinal⟩ := ih
        { released with residentBytes := released.residentBytes - bytes } haccounts hrest hleft
      refine ⟨state', ?_, hfinal⟩
      rw [List.foldlM_cons, releaseDropped, hrelease]
      exact hfold

/-- The dropped values can be taken off the books, and what is left is what is in memory. -/
theorem World.Ledger.drain (h : w.Ledger) (hagree : w.RowsAgree) :
    ∃ drained, w.drain = some drained ∧ drained.Ledger ∧ drained.state.dropQueue = [] := by
  have hperm : w.holdings = Multiset.ofList (w.state.dropQueue.map DroppedResident.holding) +
      Multiset.ofList (w.live.filterMap Entry.holding) := by
    rw [World.holdings, Multiset.coe_add, Multiset.coe_eq_coe]
    exact List.perm_append_comm
  have hconsistent := World.consistent_holdings h.footprint h.dropped hagree
  rw [hperm] at hconsistent
  obtain ⟨state, hstate, hcounts, hbytes⟩ := foldlM_releaseDropped_spec
    { w.state with
      dropQueue := []
      stalledAt := if w.state.dropQueue.isEmpty then w.state.stalledAt else none }
    (hperm ▸ h.counts) hconsistent (hperm ▸ h.charged)
  have hqueue : state.dropQueue = [] := (drainDroppedResidents_index hstate).2.2
  have hholdings : World.holdings { w with state } = ↑(w.live.filterMap Entry.holding) := by
    rw [World.holdings]
    dsimp only
    rw [hqueue, List.map_nil, List.append_nil]
  refine ⟨{ w with state }, ?_, ?_, hqueue⟩
  · rw [World.drain, drainDroppedResidents, hstate]
    rfl
  · exact {
      counts := by
        rw [hholdings]
        exact hcounts
      charged := by
        rw [hholdings]
        exact hbytes
      footprint := h.footprint
      dropped := by
        intro waiting hwaiting
        have hnone : waiting ∈ ([] : List (DroppedResident V)) := hqueue ▸ hwaiting
        exact absurd hnone List.not_mem_nil }

/-- A value in memory can be written out: what it was charged is given back. -/
theorem World.Ledger.unload {entry : Entry V H} {value : Allocation V} (digest : H) (h : w.Ledger)
    (hagree : w.RowsAgree) (hids : (w.live.map Entry.id).Nodup) (hlive : entry ∈ w.live)
    (hresident : entry.resident = some value) :
    ∃ unloaded released, w.unload { entry with integrity := some digest } =
        some (unloaded, released) ∧ released ≤ w.state.residentBytes ∧
      (unloaded.withResident (w.state.residentBytes - released)).Ledger := by
  obtain ⟨before, after, hsplit, hset, -⟩ := live_split hids hlive
  have hown : entry.holding = some (holdingOf entry.bytes entry.rowFootprint) := by
    rw [Entry.holding, hresident, Option.map_some]
  -- take the entry out of the holdings: what is left is what the unloaded store holds
  have hholdings := holdings_split hsplit
  rw [hown, Option.toList_some, Multiset.coe_singleton, Multiset.singleton_add] at hholdings
  have hconsistent := World.consistent_holdings h.footprint h.dropped hagree
  rw [hholdings] at hconsistent
  obtain ⟨state, released, hrelease, hcounts, htotal, -⟩ :=
    release_spec (hholdings ▸ h.counts) hconsistent
  have hcharged : w.state.residentBytes =
      total sharedRowMapBytes (World.holdings { w with live := before ++ after }) + released := by
    rw [h.charged, hholdings, htotal]
  -- the same store with the value gone and its rows released
  obtain ⟨unloaded, hunload, hlives, hqueue, hrows⟩ : ∃ unloaded : World V H,
      w.unload { entry with integrity := some digest } = some (unloaded, released) ∧
      unloaded.live = before ++ { entry with
        integrity := some digest
        rowFootprint := none
        resident := none } :: after ∧
      unloaded.state.dropQueue = w.state.dropQueue ∧
      unloaded.state.sharedRows = state.sharedRows :=
    ⟨_, unload_of_release hrelease, hset _ rfl, (release_sameIndex hrelease).dropQueue, rfl⟩
  have hunloaded : (unloaded.withResident (w.state.residentBytes - released)).holdings =
      World.holdings { w with live := before ++ after } := by
    have hspilled : (unloaded.withResident (w.state.residentBytes - released)).live = _ := hlives
    rw [holdings_split hspilled, World.holdings, World.holdings, World.withResident]
    dsimp only
    rw [hqueue]
    exact Multiset.zero_add _
  refine ⟨unloaded, released, hunload, ?_, ?_⟩
  · rw [hcharged]
    exact Nat.le_add_left _ _
  exact {
    counts := by
      rw [hunloaded]
      show Accounts unloaded.state.sharedRows _
      rw [hrows]
      exact hcounts
    charged := by
      rw [hunloaded]
      show w.state.residentBytes - released = _
      rw [hcharged, Nat.add_sub_cancel]
    footprint := by
      intro other hother found hfound
      have hother : other ∈ unloaded.live := hother
      rw [hlives] at hother
      have hold : other ∈ w.live := by
        rw [hsplit]
        rcases List.mem_append.mp hother with hbefore | hafter
        · exact List.mem_append_left _ hbefore
        · rcases List.mem_cons.mp hafter with rfl | hafter
          · cases hfound
          · exact List.mem_append_right _ (List.mem_cons_of_mem _ hafter)
      exact h.footprint other hold found hfound
    dropped := by
      show ∀ waiting ∈ unloaded.state.dropQueue, _
      rw [hqueue]
      exact h.dropped }

/-! ## Every reachable world -/

/-- The index and the books of the store are in order. -/
structure World.Sound (w : World V H) : Prop where
  indexed : w.Indexed
  distinct : w.Distinct
  agree : w.RowsAgree
  ledger : w.Ledger

theorem World.Sound.settle (h : w.Sound) (hsettle : Settle w w') : w'.Sound where
  indexed := h.indexed.settle hsettle
  distinct := h.distinct.mono (allocations_settle hsettle)
  agree := h.agree.mono (allocations_settle hsettle)
  ledger := by
    cases hsettle with
    | quiet hbooks =>
        exact h.ledger.same rfl hbooks.dropQueue hbooks.sharedRows hbooks.residentBytes
    | drain hdrain =>
        obtain ⟨drained, hdrained, hledger, -⟩ := h.ledger.drain h.agree
        rw [hdrain] at hdrained
        cases hdrained
        exact hledger

theorem ledger_move [DecidableEq H] (h : w.Sound) (hmove : Move platform w w') : w'.Ledger := by
  have hagree := rowsAgree_move h.agree hmove
  cases hmove with
  | settle hsettle => exact (h.settle hsettle).ledger
  | allocate | share | releaseShared | cloneHandle => exact h.ledger.same rfl rfl rfl rfl
  | @publish value position hvalue residentBytes codec =>
      have hmoved : World.Ledger { w with shared := w.shared.eraseIdx position } :=
        h.ledger.same rfl rfl rfl rfl
      exact hmoved.register hagree
  | @dropHandle handle position hhandle =>
      have hdropped : World.Ledger { w with handles := w.handles.eraseIdx position } :=
        h.ledger.same rfl rfl rfl rfl
      exact hdropped.releaseEntry h.indexed.ids handle.entry
  | @dropLease lease position hlease =>
      have hdropped : World.Ledger { w with leases := w.leases.eraseIdx position } :=
        h.ledger.same rfl rfl rfl rfl
      exact hdropped.releaseEntry h.indexed.ids lease.entry
  | reload hlive hspilled _ _ => exact h.ledger.reload h.indexed.ids hlive hspilled hagree
  | @lend entry value hlive hresident =>
      have hlent : World.Ledger { w with
          leases := w.leases ++ [⟨entry.id, value⟩]
          nextPayloadTouch := w.nextPayloadTouch + 1 } := h.ledger.same rfl rfl rfl rfl
      exact hlent.setEntry h.indexed.ids hlive rfl rfl rfl rfl
  | markCold hlive => exact h.ledger.setEntry h.indexed.ids hlive rfl rfl rfl rfl

theorem ledger_trim (h : w.Sound) (htrim : Trim platform w w') : w'.Ledger := by
  cases htrim with
  | settle hsettle => exact (h.settle hsettle).ledger
  | prune | put => exact h.ledger.same rfl rfl rfl rfl
  | @unload _ entry value digest released hlive hresident hcount hstored hunload =>
      obtain ⟨unloaded, bytes, hunloaded, -, hledger⟩ :=
        h.ledger.unload digest h.agree h.indexed.ids hlive hresident
      rw [hunload] at hunloaded
      cases hunloaded
      exact hledger

theorem sound_move [DecidableEq H] (h : w.Sound) (hmove : Move platform w w') : w'.Sound :=
  ⟨indexed_move h.indexed hmove, distinct_move h.distinct hmove, rowsAgree_move h.agree hmove,
    ledger_move h hmove⟩

theorem sound_trim (h : w.Sound) (htrim : Trim platform w w') : w'.Sound :=
  ⟨indexed_trim h.indexed htrim, h.distinct.mono (allocations_trim htrim),
    h.agree.mono (allocations_trim htrim), ledger_trim h htrim⟩

theorem Reachable.sound [DecidableEq H] (h : Reachable platform w) : w.Sound := by
  refine h.invariant ?_ (fun _ _ => sound_move) (fun _ _ => sound_trim)
  intro budget
  exact {
    indexed := (.new budget : Reachable platform _).indexed
    distinct := fun _ hvalue => absurd hvalue List.not_mem_nil
    agree := fun _ hvalue => absurd hvalue List.not_mem_nil
    ledger := {
      counts := accounts_zero
      charged := rfl
      footprint := fun _ hentry => absurd hentry List.not_mem_nil
      dropped := fun _ hwaiting => absurd hwaiting List.not_mem_nil } }

theorem sound_moves [DecidableEq H] (h : w.Sound) (hmoves : ReflTransGen (Move platform) w w') :
    w'.Sound := by
  induction hmoves with
  | refl => exact h
  | tail _ hmove ih => exact sound_move ih hmove

theorem sound_trims (h : w.Sound) (htrims : ReflTransGen (Trim platform) w w') : w'.Sound := by
  induction htrims with
  | refl => exact h
  | tail _ htrim ih => exact sound_trim ih htrim

/-! ## No operation panics -/

variable (platform) in
/-- The walk of an eviction never gives back a row that is not counted. -/
theorem evict_isSome (all : Bool) (puts : Nat → Put) (ids : List Nat) {resident : Nat}
    (h : (w.withResident resident).Sound) :
    (w.evict platform all puts ids resident).isSome := by
  induction ids generalizing w resident with
  | nil => rfl
  | cons id later ih =>
      rw [World.evict]
      split
      · rfl
      · split
        · exact ih h
        · next entry hentry =>
            have hlive := (mem_live_of_entry hentry).1
            split
            · exact ih h
            · next value hresident =>
                split
                · exact ih h
                · next hcount =>
                    split
                    · rfl
                    · next w₁ stored hpersist =>
                        have hrun := persist_withResident platform w puts entry value.value
                          resident
                        rw [hpersist] at hrun
                        obtain ⟨htrims, hlives, -, hcounts, digest, rfl, hstored⟩ :=
                          persist_ok (w := w.withResident resident) hlive hrun
                        have hsound := sound_trims h htrims
                        obtain ⟨unloaded, released, hunload, -, -⟩ := hsound.ledger.unload digest
                          hsound.agree hsound.indexed.ids (hlives ▸ hlive) hresident
                        have hmove := unload_withResident (w := w₁)
                          { entry with integrity := some digest } resident
                        rw [hunload] at hmove
                        obtain ⟨⟨w₂, bytes⟩, hunloaded, heq⟩ := Option.map_eq_some_iff.mp hmove.symm
                        cases heq
                        have hcount : w.strongCount value.address = 1 := by
                          by_contra hne
                          exact hcount hne
                        have hstep : Trim platform (w₁.withResident resident) _ :=
                          .unload (hlives ▸ hlive) hresident
                            ((hcounts value.address).trans hcount) hstored hunload
                        rw [hunloaded]
                        exact ih (sound_trim hsound hstep)

variable (platform) in
theorem trimLocked_isSome (all : Bool) (puts : Nat → Put) (h : w.Sound) :
    (w.trimLocked platform all puts).isSome := by
  obtain ⟨drained, hdrain, -⟩ := h.ledger.drain h.agree
  have htrims : ReflTransGen (Trim platform) drained drained.pruneDoubled :=
    trims_pruneDoubled drained
  have hpruned : drained.pruneDoubled.Sound := sound_trims (h.settle (.drain hdrain)) htrims
  rw [World.trimLocked, hdrain]
  show Option.isSome (if _ then _ else _) = true
  split
  · rfl
  · split
    · rfl
    · have hprune : Trim platform drained.pruneDoubled drained.pruneDoubled.prune := .prune _
      have hsound : (drained.pruneDoubled.prune.withResident
          drained.pruneDoubled.prune.state.residentBytes).Sound := sound_trim hpruned hprune
      obtain ⟨⟨evicted, resident, outcome⟩, hevict⟩ := Option.isSome_iff_exists.mp
        (evict_isSome platform all puts ((platform.byLastUse
          (drained.pruneDoubled.prune.state.entries.filterMap
            drained.pruneDoubled.prune.entry?)).map Entry.id) hsound)
      show Option.isSome (World.evict _ _ _ _ _ _ >>= _) = true
      rw [hevict]
      rfl

variable (platform) in
theorem trimOnDrop_isSome (puts : Nat → Put) (h : w.Sound) :
    (w.trimOnDrop platform puts).isSome := by
  obtain ⟨result, hresult⟩ := Option.isSome_iff_exists.mp
    (trimLocked_isSome platform false puts h)
  rw [World.trimOnDrop, hresult]
  rfl

theorem register_handles (w : World V H) (value : Allocation V) (residentBytes : Nat)
    (codec : Codec V) : ∃ id, (w.register value residentBytes codec).handles =
      w.handles ++ [⟨id, value.value⟩] := by
  unfold World.register
  split
  · exact ⟨_, rfl⟩
  · exact ⟨_, rfl⟩

/-- A publish succeeds, and its handle is of the value. -/
theorem publish_isSome [DecidableEq H] {shared : Nat} {value : Allocation V} (residentBytes : Nat)
    (codec : Codec V) (puts : Nat → Put) (h : Reachable platform w) (hvalue : w.shared[shared]? = some value) :
    ∃ w' id, w.step platform (.publish shared residentBytes codec puts) = some w' ∧
      w'.handles = w.handles ++ [⟨id, value.value⟩] := by
  obtain ⟨drained, hdrain, -⟩ := h.sound.ledger.drain h.sound.agree
  have hsound := h.sound.settle (.drain hdrain)
  obtain ⟨state, -, rfl⟩ := drain_eq_some hdrain
  have hheld : (World.shared { w with state })[shared]? = some value := hvalue
  have hmove : Move platform { w with state } _ := .publish hheld residentBytes codec
  obtain ⟨published, hpublished⟩ := Option.isSome_iff_exists.mp
    (trimOnDrop_isSome platform puts (sound_move hsound hmove))
  obtain ⟨id, hhandles⟩ := register_handles { w with state, shared := w.shared.eraseIdx shared }
    value residentBytes codec
  refine ⟨published, id, ?_, (trims_clients (trims_trimOnDrop hpublished)).handles.trans hhandles⟩
  have hmoved := drain_shared w (w.shared.eraseIdx shared)
  rw [hdrain] at hmoved
  simp only [World.step, hvalue, Option.bind_eq_bind, Option.bind_some, World.publishEntry, hmoved,
    Option.map_some]
  exact hpublished

theorem drain_live (h : w.drain = some w') : w'.live = w.live := by
  obtain ⟨state, -, rfl⟩ := drain_eq_some h
  rfl

end Chronicle.Payloads
