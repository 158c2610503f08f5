import Chronicle.Payloads.Leases

/-!
# Store failures inside a request

A request notes the failure count when it starts and compares it at its end. Failures are counted
where a spill or a reload fails; one that no caller could report is latched and handed out by a later
lease, which does not count it again. Between the two counts no failure can be handed out that only
an earlier request has counted.
-/

namespace Chronicle.Payloads

variable {V H : Type} {platform : Platform V H} {w w' : World V H}

/-! ## The bracket -/

variable {Engine Preflight Observation ArtifactRef Bundle : Type}

/-- The count of failures and the latched one are the same. -/
structure SameFailures (state state' : StoreState V) : Prop where
  failureCount : state'.failureCount = state.failureCount
  error : state'.error = state.error

theorem SameFailures.trans {state state' state'' : StoreState V} (h : SameFailures state state')
    (h' : SameFailures state' state'') : SameFailures state state'' :=
  ⟨h'.failureCount.trans h.failureCount, h'.error.trans h.error⟩

theorem charge_sameFailures (state : StoreState V) (bytes : Nat)
    (footprint : Option RowTableFootprint) :
    SameFailures state (charge state bytes footprint).1 := by
  cases footprint with
  | none => exact ⟨rfl, rfl⟩
  | some footprint => exact ⟨rfl, rfl⟩

theorem release_sameFailures {state state' : StoreState V} {bytes released : Nat}
    {footprint : Option RowTableFootprint}
    (h : release state bytes footprint = some (state', released)) : SameFailures state state' := by
  cases footprint with
  | none =>
      cases h
      exact ⟨rfl, rfl⟩
  | some footprint =>
      obtain ⟨removed, -, h⟩ := Option.bind_eq_some_iff.mp h
      cases h
      exact ⟨rfl, rfl⟩

theorem foldlM_releaseDropped_sameFailures {queue : List (DroppedResident V)}
    {state state' : StoreState V} (h : queue.foldlM releaseDropped state = some state') :
    SameFailures state state' := by
  induction queue generalizing state with
  | nil =>
      cases h
      exact ⟨rfl, rfl⟩
  | cons dropped queue ih =>
      rw [List.foldlM_cons] at h
      obtain ⟨next, hnext, h⟩ := Option.bind_eq_some_iff.mp h
      have hstep : SameFailures state next := by
        obtain ⟨⟨released, bytes⟩, hrelease, hnext⟩ := Option.bind_eq_some_iff.mp hnext
        cases hnext
        exact ⟨(release_sameFailures hrelease).failureCount, (release_sameFailures hrelease).error⟩
      exact hstep.trans (ih h)

theorem drain_sameFailures (h : w.drain = some w') : SameFailures w.state w'.state := by
  obtain ⟨state, hstate, rfl⟩ := drain_eq_some h
  have hfold := foldlM_releaseDropped_sameFailures hstate
  exact ⟨hfold.failureCount, hfold.error⟩

theorem reload_sameFailures (w : World V H) (entry : Entry V H) (value : Allocation V) :
    SameFailures w.state (w.reload entry value).state := by
  have hsame := charge_sameFailures { w.state with
    byAddress := if w.state.byAddress entry.address = some entry.id then
      Function.update w.state.byAddress entry.address none else w.state.byAddress }
    entry.bytes value.footprint
  exact ⟨hsame.failureCount, hsame.error⟩

/-- The count does not go down, and a failure that is latched afterwards was latched before or has
been counted in between. -/
structure Accounted (state state' : StoreState V) : Prop where
  le : state.failureCount ≤ state'.failureCount
  latched : ∀ error ∈ state'.error,
    state.error = some error ∨ state.failureCount < state'.failureCount

theorem Accounted.trans {state state' state'' : StoreState V} (h : Accounted state state')
    (h' : Accounted state' state'') : Accounted state state'' := by
  refine ⟨h.le.trans h'.le, fun error herror => ?_⟩
  obtain hkept | hlt := h'.latched error herror
  · exact (h.latched error hkept).imp_right fun hlt => hlt.trans_le h'.le
  · exact .inr (h.le.trans_lt hlt)

theorem SameFailures.accounted {state state' : StoreState V} (h : SameFailures state state') :
    Accounted state state' :=
  ⟨h.failureCount.ge, fun _ herror => .inl (h.error ▸ herror)⟩

theorem accounted_unlatched (w : World V H) : Accounted w.state w.unlatched.state :=
  ⟨le_rfl, nofun⟩

theorem accounted_leaseIfResident {handle : PayloadHandle V}
    {result : Except String (Option (PayloadLease V))}
    (h : w.leaseIfResident handle = some (w', result)) :
    Accounted w.state w'.state ∧ ∀ error, result = .error error → w.state.error = some error := by
  unfold World.leaseIfResident at h
  split at h
  · rename_i error herror
    cases h
    refine ⟨accounted_unlatched w, fun error' heq => ?_⟩
    cases heq
    exact herror
  · obtain ⟨entry, -, hresident⟩ := Option.bind_eq_some_iff.mp h
    split at hresident
    · cases hresident
      exact ⟨SameFailures.accounted ⟨rfl, rfl⟩, nofun⟩
    · cases hresident
      exact ⟨SameFailures.accounted ⟨rfl, rfl⟩, nofun⟩

variable [DecidableEq H]

/-- A lease that reports a failure hands out the latched one, or counts a new one. -/
theorem accounted_lease {handle : PayloadHandle V} {answer : Except String (List UInt8)}
    {address : Nat} {footprint : Option RowTableFootprint}
    {result : Except String (PayloadLease V)}
    (h : w.lease platform handle answer address footprint = some (w', result)) :
    Accounted w.state w'.state ∧ ∀ error, result = .error error →
      w.state.error = some error ∨ w.state.failureCount < w'.state.failureCount := by
  unfold World.lease at h
  split at h
  · rename_i error herror
    cases h
    refine ⟨accounted_unlatched w, fun error' heq => .inl ?_⟩
    cases heq
    exact herror
  · obtain ⟨entry, -, hentry⟩ := Option.bind_eq_some_iff.mp h
    split at hentry
    · cases hentry
      exact ⟨SameFailures.accounted ⟨rfl, rfl⟩, nofun⟩
    · split at hentry
      · cases hentry
        exact ⟨⟨Nat.le_succ _, fun _ herror => .inl herror⟩, fun _ _ => .inr (Nat.lt_succ_self _)⟩
      · obtain ⟨drained, hdrain, hlent⟩ := Option.bind_eq_some_iff.mp hentry
        cases hlent
        refine ⟨SameFailures.accounted ?_, nofun⟩
        exact (drain_sameFailures hdrain).trans (reload_sameFailures drained entry _)

/-- A lease of a handle, of either kind, reports a failure. -/
def World.Reports (platform : Platform V H) (w w' : World V H) : Prop :=
  (∃ handle answer address footprint error,
    w.lease platform handle answer address footprint = some (w', .error error)) ∨
  ∃ handle error, w.leaseIfResident handle = some (w', .error error)

theorem World.Reports.accounted (h : w.Reports platform w') :
    Accounted w.state w'.state ∧
      ((∃ error, w.state.error = some error) ∨ w.state.failureCount < w'.state.failureCount) := by
  obtain ⟨handle, answer, address, footprint, error, hlease⟩ | ⟨handle, error, hlease⟩ := h
  · obtain ⟨haccounted, herror⟩ := accounted_lease hlease
    exact ⟨haccounted, (herror error rfl).imp_left fun h => ⟨error, h⟩⟩
  · obtain ⟨haccounted, herror⟩ := accounted_leaseIfResident hlease
    exact ⟨haccounted, .inl ⟨error, herror error rfl⟩⟩

end Chronicle.Payloads
