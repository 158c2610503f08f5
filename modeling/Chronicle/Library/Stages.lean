/-!
# Chains of fallible stages

A chain applies its stages in order and ends at the first failure. `reached` lists every state the
chain passes through, the first one included.
-/

namespace Chronicle.Library.Stages

variable {σ ε : Type}

/-- A stage: the next state, or the failure that ends the chain. -/
abbrev Stage (σ ε : Type) := σ → Except ε σ

/-- The states that the chain passes through. -/
def reached : List (Stage σ ε) → σ → List σ
  | [], state => [state]
  | stage :: stages, state =>
      match stage state with
      | .ok next => state :: reached stages next
      | .error _ => [state]

/-- The state after the whole chain, if no stage fails. -/
def finish : List (Stage σ ε) → σ → Except ε σ
  | [], state => .ok state
  | stage :: stages, state => stage state >>= finish stages

/-- The stage keeps what it is given. -/
def Preserves (P : σ → Prop) (stage : Stage σ ε) : Prop :=
  ∀ state next, P state → stage state = .ok next → P next

variable {P : σ → Prop} {stages : List (Stage σ ε)} {state : σ}

/-- A sequence of two steps succeeds as its second step does on what the first one gives. -/
theorem bind_eq_ok {α β : Type} {x : Except ε α} {f : α → Except ε β} {y : β} :
    x >>= f = .ok y ↔ ∃ a, x = .ok a ∧ f a = .ok y := by
  cases x with
  | error failure => simp [bind, Except.bind]
  | ok a => simp [bind, Except.bind]

/-- A mapped result comes from a result. -/
theorem map_eq_ok {α β : Type} {x : Except ε α} {f : α → β} {y : β} :
    x.map f = .ok y ↔ ∃ a, x = .ok a ∧ f a = y := by
  cases x with
  | error failure => simp [Except.map]
  | ok a => simp [Except.map]

theorem toOption_eq_some {α : Type} {x : Except ε α} {y : α} :
    x.toOption = some y ↔ x = .ok y := by
  cases x <;> simp [Except.toOption]

/-- A test that refuses comes before the rest. -/
theorem ite_error_eq_ok {α : Type} {p : Prop} {decision : Decidable p} {failure : ε}
    {x : Except ε α} {y : α} : (if p then .error failure else x) = .ok y ↔ ¬p ∧ x = .ok y := by
  split
  · rename_i hp
    exact iff_of_false (by simp) fun h => h.1 hp
  · rename_i hp
    exact (and_iff_right hp).symm

/-! ## Checks -/

/-- A check of a requirement. -/
def require (holds : Prop) [Decidable holds] (failure : ε) : Except ε Unit :=
  if holds then .ok () else .error failure

@[simp]
theorem require_eq_ok {holds : Prop} {decision : Decidable holds} {failure : ε} :
    require holds failure = .ok () ↔ holds := by
  by_cases h : holds <;> simp [require, h]

/-- A sequence of two checks passes when both do. -/
theorem check_and {first second : Except ε Unit} :
    (first >>= fun _ => second) = .ok () ↔ first = .ok () ∧ second = .ok () := by
  rw [bind_eq_ok]
  exact ⟨fun ⟨_, h, h'⟩ => ⟨h, h'⟩, fun ⟨h, h'⟩ => ⟨(), h, h'⟩⟩

/-- The checks of a list pass when each of them does. -/
theorem forM_eq_ok {α : Type} {check : α → Except ε Unit} {l : List α} :
    l.forM check = .ok () ↔ ∀ x ∈ l, check x = .ok () := by
  induction l with
  | nil => exact ⟨fun _ _ h => absurd h List.not_mem_nil, fun _ => rfl⟩
  | cons x l ih =>
      rw [List.forall_mem_cons, ← ih]
      exact check_and

/-! ## Chains -/

theorem mem_reached_self (stages : List (Stage σ ε)) (state : σ) : state ∈ reached stages state := by
  cases stages with
  | nil => exact List.mem_singleton_self state
  | cons stage stages =>
      rw [reached]
      split
      · exact List.mem_cons_self
      · exact List.mem_singleton_self state

/-- What holds at first and is kept by every stage holds of every state reached. -/
theorem invariant_of_mem_reached (hinit : P state) (hstages : ∀ stage ∈ stages, Preserves P stage) :
    ∀ later ∈ reached stages state, P later := by
  induction stages generalizing state with
  | nil =>
      intro later hlater
      exact List.mem_singleton.mp hlater ▸ hinit
  | cons stage stages ih =>
      intro later hlater
      rw [reached] at hlater
      split at hlater
      case h_1 next hnext =>
        rcases List.mem_cons.mp hlater with rfl | hlater
        · exact hinit
        · have hkept := hstages stage List.mem_cons_self state next hinit hnext
          exact ih hkept (fun s hs => hstages s (List.mem_cons_of_mem stage hs)) later hlater
      case h_2 =>
        exact List.mem_singleton.mp hlater ▸ hinit

/-- The whole chain keeps what its stages keep. -/
theorem invariant_of_finish (hinit : P state) (hstages : ∀ stage ∈ stages, Preserves P stage)
    {last : σ} (hlast : finish stages state = .ok last) : P last := by
  induction stages generalizing state with
  | nil =>
      cases hlast
      exact hinit
  | cons stage stages ih =>
      rw [finish] at hlast
      obtain ⟨next, hnext, hlast⟩ := bind_eq_ok.mp hlast
      have hkept := hstages stage List.mem_cons_self state next hinit hnext
      exact ih hkept (fun s hs => hstages s (List.mem_cons_of_mem stage hs)) hlast

/-- Every result of a fallible map comes from an element. -/
theorem mem_of_mapM_ok {α β : Type} {f : α → Except ε β} {l : List α} {results : List β}
    (h : l.mapM f = .ok results) {y : β} (hy : y ∈ results) : ∃ x ∈ l, f x = .ok y := by
  induction l generalizing results with
  | nil =>
      cases h
      exact absurd hy List.not_mem_nil
  | cons x rest ih =>
      rw [List.mapM_cons] at h
      obtain ⟨first, hx, h⟩ := bind_eq_ok.mp h
      obtain ⟨others, hrest, h⟩ := bind_eq_ok.mp h
      cases h
      rcases List.mem_cons.mp hy with rfl | hy
      · exact ⟨x, List.mem_cons_self, hx⟩
      · obtain ⟨x', hx', hfx⟩ := ih hrest hy
        exact ⟨x', List.mem_cons_of_mem x hx', hfx⟩

/-- A fallible map that succeeds is the map of the results. -/
theorem eq_map_of_mapM_ok {α β : Type} {f : α → Except ε β} {g : α → β} {l : List α}
    {results : List β} (hf : ∀ x y, f x = .ok y → y = g x) (h : l.mapM f = .ok results) :
    results = l.map g := by
  induction l generalizing results with
  | nil =>
      cases h
      rfl
  | cons x rest ih =>
      rw [List.mapM_cons] at h
      obtain ⟨first, hx, h⟩ := bind_eq_ok.mp h
      obtain ⟨others, hrest, h⟩ := bind_eq_ok.mp h
      cases h
      rw [List.map_cons, hf x first hx, ih hrest]

/-- A fallible map that succeeds has a result for every element. -/
theorem exists_ok_of_mapM_ok {α β : Type} {f : α → Except ε β} {l : List α} {results : List β}
    (h : l.mapM f = .ok results) {x : α} (hx : x ∈ l) : ∃ y, f x = .ok y := by
  induction l generalizing results with
  | nil => exact absurd hx List.not_mem_nil
  | cons first rest ih =>
      rw [List.mapM_cons] at h
      obtain ⟨y, hy, h⟩ := bind_eq_ok.mp h
      obtain ⟨others, hrest, h⟩ := bind_eq_ok.mp h
      rcases List.mem_cons.mp hx with rfl | hx
      · exact ⟨y, hy⟩
      · exact ih hrest hx

/-- A map whose every result is there succeeds. -/
theorem mapM_eq_ok_map {α β : Type} {f : α → Except ε β} {g : α → β} {l : List α}
    (hf : ∀ x ∈ l, f x = .ok (g x)) : l.mapM f = .ok (l.map g) := by
  induction l with
  | nil => rfl
  | cons x rest ih =>
      rw [List.mapM_cons, hf x List.mem_cons_self,
        ih fun y hy => hf y (List.mem_cons_of_mem x hy)]
      rfl

end Chronicle.Library.Stages
