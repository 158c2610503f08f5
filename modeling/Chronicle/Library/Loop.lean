import Mathlib.Data.List.Nodup
import Mathlib.Data.List.Perm.Basic

/-!
# Loops over an index range, vector searches and array writes

A `for index in 0..len` loop is a fold over `List.range len`: one induction rule for an invariant
and one for two loops in lockstep. A search by position in a vector without duplicates is related
to the search by value. A sequence of array writes to different cells is independent of its order.
-/

namespace Chronicle.Library.Loop

section Range

variable {σ τ : Type*}

/-- An invariant indexed by the number of passes done. -/
theorem foldl_range_induction {P : Nat → σ → Prop} {step : σ → Nat → σ} {init : σ} {len : Nat}
    (hinit : P 0 init)
    (hstep : ∀ index st, index < len → P index st → P (index + 1) (step st index)) :
    P len ((List.range len).foldl step init) := by
  induction len with
  | zero => exact hinit
  | succ len ih =>
      rw [List.range_succ, List.foldl_append]
      exact hstep len _ (Nat.lt_succ_self len)
        (ih fun index st hindex => hstep index st (Nat.lt_succ_of_lt hindex))

/-- A relation that two loops keep when they make their passes together. -/
theorem foldl_range_lockstep {R : Nat → σ → τ → Prop} {step : σ → Nat → σ} {other : τ → Nat → τ}
    {init : σ} {start : τ} {len : Nat} (hinit : R 0 init start)
    (hstep : ∀ index st ot, index < len → R index st ot →
      R (index + 1) (step st index) (other ot index)) :
    R len ((List.range len).foldl step init) ((List.range len).foldl other start) := by
  induction len with
  | zero => exact hinit
  | succ len ih =>
      rw [List.range_succ, List.foldl_append, List.foldl_append]
      exact hstep len _ _ (Nat.lt_succ_self len)
        (ih fun index st ot hindex => hstep index st ot (Nat.lt_succ_of_lt hindex))

/-- An invariant of a loop that runs from the last index down to the first. -/
theorem foldr_range_induction {P : Nat → σ → Prop} {step : Nat → σ → σ} {init : σ} {len : Nat}
    (hinit : P len init)
    (hstep : ∀ index st, index < len → P (index + 1) st → P index (step index st)) :
    P 0 ((List.range len).foldr step init) := by
  induction len generalizing init with
  | zero => exact hinit
  | succ len ih =>
      rw [List.range_succ, List.foldr_append]
      exact ih (hstep len init (Nat.lt_succ_self len) hinit)
        fun index st hindex => hstep index st (Nat.lt_succ_of_lt hindex)

/-- A loop whose passes can fail does what the loop without failures does, if an invariant keeps
every pass from failing. -/
theorem foldlM_range_eq {ε : Type*} {P : Nat → σ → Prop} {step : σ → Nat → Except ε σ}
    {pass : σ → Nat → σ} {init : σ} {len : Nat} (hinit : P 0 init)
    (hstep : ∀ index st, index < len → P index st →
      step st index = .ok (pass st index) ∧ P (index + 1) (pass st index)) :
    (List.range len).foldlM step init = .ok ((List.range len).foldl pass init) ∧
      P len ((List.range len).foldl pass init) := by
  induction len with
  | zero => exact ⟨rfl, hinit⟩
  | succ len ih =>
      obtain ⟨hrun, hkeeps⟩ := ih fun index st hindex => hstep index st (Nat.lt_succ_of_lt hindex)
      obtain ⟨hpass, hnext⟩ := hstep len _ (Nat.lt_succ_self len) hkeeps
      rw [List.range_succ, List.foldlM_append, List.foldl_append, hrun]
      refine ⟨?_, hnext⟩
      change (List.foldlM step _ [len]) = _
      rw [List.foldlM_cons, hpass]
      rfl

end Range

section Position

variable {items : List Nat} {p : Nat → Bool}

/-- Without duplicates, erasing a position erases its value. -/
theorem eraseIdx_eq_filter (hnodup : items.Nodup) {position value : Nat}
    (h : items[position]? = some value) :
    items.eraseIdx position = items.filter fun other => other ∉ [value] := by
  induction items generalizing position with
  | nil => simp at h
  | cons first rest ih =>
      rw [List.nodup_cons] at hnodup
      cases position with
      | zero =>
          obtain rfl : first = value := by simpa using h
          have hrest : rest.filter (fun other => other ∉ [first]) = rest :=
            List.filter_eq_self.mpr fun other hother => by
              have hne : other ≠ first := fun heq => hnodup.1 (heq ▸ hother)
              simp [hne]
          simpa using hrest.symm
      | succ position =>
          have hvalue : rest[position]? = some value := by simpa using h
          have hne : first ≠ value := fun heq =>
            hnodup.1 (heq ▸ List.mem_of_getElem? hvalue)
          simp [ih hnodup.2 hvalue, hne]

/-- Searching the positions backwards finds the value that a search by value finds. -/
theorem find_reverse_eq (items : List Nat) (p : Nat → Bool) :
    items.reverse.find? p =
      (items.zipIdx.reverse.find? fun entry => p entry.1).map Prod.fst := by
  have hmap : items.reverse = items.zipIdx.reverse.map Prod.fst := by
    rw [List.map_reverse, List.zipIdx_map_fst]
  conv_lhs => rw [hmap]
  rw [List.find?_map]
  rfl

/-- A position that a backward search finds holds the value it was found with. -/
theorem getElem_of_find_position {value position : Nat}
    (h : items.zipIdx.reverse.find? (fun entry => p entry.1) = some (value, position)) :
    items[position]? = some value := by
  have hmem := List.mem_reverse.mp (List.mem_of_find?_eq_some h)
  exact List.mk_mem_zipIdx_iff_getElem?.mp hmem

end Position

section Writes

variable {α : Type*}

/-- Write each entry's value to its cell, in order. -/
def writeAll (cells : Array α) (entries : List (Nat × α)) : Array α :=
  entries.foldl (fun cells entry => cells.setIfInBounds entry.1 entry.2) cells

@[simp] theorem writeAll_nil (cells : Array α) : writeAll cells [] = cells := rfl

theorem writeAll_append (cells : Array α) (first second : List (Nat × α)) :
    writeAll cells (first ++ second) = writeAll (writeAll cells first) second :=
  List.foldl_append ..

@[simp] theorem writeAll_size (cells : Array α) (entries : List (Nat × α)) :
    (writeAll cells entries).size = cells.size := by
  induction entries generalizing cells with
  | nil => rfl
  | cons entry rest ih => exact (ih _).trans (Array.size_setIfInBounds ..)

/-- A cell no entry names keeps its value. -/
theorem writeAll_other {cells : Array α} {entries : List (Nat × α)} {i : Nat} {dflt : α}
    (h : i ∉ entries.map Prod.fst) : (writeAll cells entries).getD i dflt = cells.getD i dflt := by
  induction entries generalizing cells with
  | nil => rfl
  | cons entry rest ih =>
      rw [List.map_cons, List.mem_cons, not_or] at h
      refine (ih h.2).trans ?_
      have hne : entry.1 ≠ i := fun heq => h.1 heq.symm
      simp [Array.getD_eq_getD_getElem?, hne]

/-- A cell that exactly one entry names holds that entry's value. -/
theorem writeAll_of_mem {cells : Array α} {entries : List (Nat × α)} {i : Nat} {value : α}
    (dflt : α) (hnodup : (entries.map Prod.fst).Nodup) (hmem : (i, value) ∈ entries)
    (hi : i < cells.size) : (writeAll cells entries).getD i dflt = value := by
  induction entries generalizing cells with
  | nil => simp at hmem
  | cons entry rest ih =>
      rw [List.map_cons, List.nodup_cons] at hnodup
      rcases List.mem_cons.mp hmem with rfl | hmem
      · refine (writeAll_other hnodup.1).trans ?_
        simp [Array.getD_eq_getD_getElem?, hi]
      · exact ih hnodup.2 hmem (by simpa using hi)

/-- Writes to different cells may be made in any order. -/
theorem writeAll_perm {cells : Array α} {entries other : List (Nat × α)}
    (hperm : entries.Perm other) (hnodup : (entries.map Prod.fst).Nodup) :
    writeAll cells entries = writeAll cells other := by
  refine hperm.foldl_eq' ?_ cells
  intro x hx y hy cells
  by_cases hxy : x.1 = y.1
  · obtain rfl : x = y := List.inj_on_of_nodup_map hnodup hx hy hxy
    rfl
  · exact Array.setIfInBounds_comm _ _ hxy

end Writes

section Walk

variable {σ α β γ : Type*}

/-- A loop over a list that carries a state and rewrites every element. -/
def walk (step : σ → α → σ × β) : σ → List α → List β
  | _, [] => []
  | state, x :: rest => (step state x).2 :: walk step (step state x).1 rest

/-- Rewriting an element just before its pass is rewriting the whole list first. -/
theorem walk_map (step : σ → β → σ × γ) (before : α → β) (state : σ) (l : List α) :
    walk (fun state x => step state (before x)) state l = walk step state (l.map before) := by
  induction l generalizing state with
  | nil => rfl
  | cons x rest ih => rw [List.map_cons, walk, walk, ih]

/-- Rewriting an element just after its pass is rewriting the whole list afterwards. -/
theorem map_walk (step : σ → α → σ × β) (after : β → γ) (state : σ) (l : List α) :
    walk (fun state x => ((step state x).1, after (step state x).2)) state l =
      (walk step state l).map after := by
  induction l generalizing state with
  | nil => rfl
  | cons x rest ih => rw [walk, walk, List.map_cons, ih]

/-- Every element of the result is what some pass made of an element of the list. -/
theorem exists_of_mem_walk {step : σ → α → σ × β} {state : σ} {l : List α} {y : β}
    (h : y ∈ walk step state l) : ∃ x ∈ l, ∃ before, y = (step before x).2 := by
  induction l generalizing state with
  | nil => exact absurd h List.not_mem_nil
  | cons x rest ih =>
      rw [walk] at h
      rcases List.mem_cons.mp h with rfl | h
      · exact ⟨x, List.mem_cons_self, state, rfl⟩
      · obtain ⟨x', hx', before, hy⟩ := ih h
        exact ⟨x', List.mem_cons_of_mem x hx', before, hy⟩

end Walk

section Modify

variable {α β : Type*} {l : List α} {f : α → α}

/-- An element after a rewrite is the rewritten one or an element from before. -/
theorem mem_modify {i : Nat} {y : α} (h : y ∈ l.modify i f) :
    y ∈ l ∨ ∃ x, l[i]? = some x ∧ y = f x := by
  obtain ⟨j, hj⟩ := List.mem_iff_getElem?.mp h
  rw [List.getElem?_modify] at hj
  cases hx : l[j]? with
  | none => simp [hx] at hj
  | some x =>
      rw [hx] at hj
      split at hj
      case isTrue heq =>
        subst heq
        exact Or.inr ⟨x, hx, by simpa using hj.symm⟩
      case isFalse =>
        have hxy : x = y := by simpa using hj
        exact Or.inl (hxy ▸ List.mem_of_getElem? hx)

/-- A rewrite that keeps a projection keeps the projected list. -/
theorem map_modify_eq {g : α → β} (hf : ∀ x, g (f x) = g x) (l : List α) (i : Nat) :
    (l.modify i f).map g = l.map g := by
  refine List.ext_getElem? fun j => ?_
  rw [List.getElem?_map, List.getElem?_map, List.getElem?_modify]
  cases l[j]? with
  | none => rfl
  | some x =>
      by_cases hij : i = j
      · simp [hij, hf]
      · simp [hij]

end Modify

end Chronicle.Library.Loop
