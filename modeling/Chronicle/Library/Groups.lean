import Mathlib.Data.List.Perm.Basic
import Mathlib.Data.List.Nodup

/-!
# Groups of a list and writing them back

The elements of a list fall into groups by a key. A group is taken out by its positions, changed,
and written back at the same positions.
-/

namespace Chronicle.Library.Groups

section Keys

variable {α κ : Type*} [DecidableEq κ] (key : α → κ)

/-- The groups hold what the list holds. -/
theorem perm_flatMap_filter {keys : List κ} (hnodup : keys.Nodup) {l : List α}
    (hkeys : ∀ x ∈ l, key x ∈ keys) :
    l.Perm (keys.flatMap fun k => l.filter fun x => key x = k) := by
  induction keys generalizing l with
  | nil => rw [List.eq_nil_iff_forall_not_mem.mpr fun x hx => nomatch hkeys x hx]; rfl
  | cons k keys ih =>
      obtain ⟨hk, hnodup⟩ := List.nodup_cons.mp hnodup
      have hothers : ∀ x ∈ l.filter fun x => !decide (key x = k), key x ∈ keys := fun x hx => by
        obtain ⟨hx, hne⟩ := List.mem_filter.mp hx
        exact (List.mem_cons.mp (hkeys x hx)).resolve_left (by simpa using hne)
      have hrest := ih hnodup hothers
      have hsame : (keys.flatMap fun k' =>
          (l.filter fun x => !decide (key x = k)).filter fun x => key x = k') =
          keys.flatMap fun k' => l.filter fun x => key x = k' := by
        refine List.flatMap_congr fun k' hk' => ?_
        rw [List.filter_filter]
        refine List.filter_congr fun x _ => ?_
        have hne : k' ≠ k := fun h => hk (h ▸ hk')
        by_cases hx : key x = k' <;> simp [hx, hne]
      rw [hsame] at hrest
      rw [List.flatMap_cons]
      exact (List.filter_append_perm _ l).symm.trans (hrest.append_left _)

omit [DecidableEq κ] in
/-- A test that only one group can pass selects within that group. -/
theorem filter_flatMap_of_mem {keys : List κ} (hnodup : keys.Nodup) {k : κ} (hk : k ∈ keys)
    {f : κ → List α} {p : α → Bool} (h : ∀ k' ∈ keys, k' ≠ k → (f k').filter p = []) :
    (keys.flatMap f).filter p = (f k).filter p := by
  induction keys with
  | nil => exact absurd hk List.not_mem_nil
  | cons k' keys ih =>
      obtain ⟨hk', hnodup⟩ := List.nodup_cons.mp hnodup
      rw [List.flatMap_cons, List.filter_append]
      rcases List.mem_cons.mp hk with rfl | hmem
      · have hnone : (keys.flatMap f).filter p = [] := by
          refine List.filter_eq_nil_iff.mpr fun x hx => ?_
          obtain ⟨k', hmem, hx⟩ := List.mem_flatMap.mp hx
          have hne : k' ≠ k := fun heq => hk' (heq ▸ hmem)
          exact List.filter_eq_nil_iff.mp (h k' (List.mem_cons_of_mem _ hmem) hne) x hx
        rw [hnone, List.append_nil]
      · have hne : k' ≠ k := fun heq => hk' (heq ▸ hmem)
        rw [h k' List.mem_cons_self hne, List.nil_append]
        exact ih hnodup hmem fun other hother => h other (List.mem_cons_of_mem _ hother)

/-- The positions of the elements with a key. -/
def positions (l : List α) (k : κ) : List Nat :=
  (l.zipIdx.filter fun entry => key entry.1 = k).map (·.2)

variable {key} {l : List α} {k : κ}

theorem mem_positions {i : Nat} : i ∈ positions key l k ↔ ∃ x, l[i]? = some x ∧ key x = k := by
  simp [positions, List.mem_zipIdx_iff_getElem?]

theorem nodup_positions : (positions key l k).Nodup := by
  have hnodup : (l.zipIdx.map (·.2)).Nodup := by
    rw [List.zipIdx_map_snd]
    exact List.nodup_range'
  exact (List.filter_sublist.map _).nodup hnodup

/-- The elements at the positions of a group are the group. -/
theorem map_positions : (positions key l k).filterMap (l[·]?) = l.filter fun x => key x = k := by
  have hall : ∀ entry ∈ l.zipIdx.filter fun entry => key entry.1 = k,
      l[entry.2]? = some entry.1 := fun entry hentry =>
    List.mem_zipIdx_iff_getElem?.mp (List.mem_filter.mp hentry).1
  rw [positions, List.filterMap_map]
  calc (l.zipIdx.filter fun entry => key entry.1 = k).filterMap (fun entry => l[entry.2]?)
      = (l.zipIdx.filter fun entry => key entry.1 = k).filterMap (fun entry => some entry.1) :=
        List.filterMap_congr hall
    _ = (l.zipIdx.filter fun entry => key entry.1 = k).map (·.1) := by
        rw [← List.filterMap_eq_map]; rfl
    _ = l.filter fun x => key x = k := by
        rw [← List.zipIdx_map_fst 0 l, List.filter_map, List.zipIdx_map_fst]
        rfl

@[simp]
theorem length_positions :
    (positions key l k).length = (l.filter fun x => key x = k).length := by
  rw [← map_positions, List.length_filterMap_eq_countP, eq_comm, List.countP_eq_length]
  intro i hi
  obtain ⟨x, hx, -⟩ := mem_positions.mp hi
  simp [hx]

/-- The positions of different keys are different. -/
theorem disjoint_positions {k' : κ} (h : k ≠ k') :
    (positions key l k).Disjoint (positions key l k') := by
  intro i hi hi'
  obtain ⟨x, hx, hk⟩ := mem_positions.mp hi
  obtain ⟨x', hx', hk'⟩ := mem_positions.mp hi'
  rw [hx, Option.some.injEq] at hx'
  exact h (by rw [← hk, ← hk', hx'])

end Keys

section WriteBack

variable {α : Type*}

/-- The list after new values are written at the given positions. -/
def writeBack (l : List α) (places : List Nat) (values : List α) : List α :=
  (places.zip values).foldl (fun l write => l.set write.1 write.2) l

variable {l values : List α} {places : List Nat} {i : Nat}

theorem writeBack_cons (l : List α) (i : Nat) (places : List Nat) (x : α) (values : List α) :
    writeBack l (i :: places) (x :: values) = writeBack (l.set i x) places values := rfl

@[simp]
theorem length_writeBack : (writeBack l places values).length = l.length := by
  induction places generalizing l values with
  | nil => rfl
  | cons j places ih =>
      cases values with
      | nil => rfl
      | cons x values => rw [writeBack_cons, ih, List.length_set]

/-- Elsewhere nothing changes. -/
theorem getElem?_writeBack (hi : i ∉ places) : (writeBack l places values)[i]? = l[i]? := by
  induction places generalizing l values with
  | nil => rfl
  | cons j places ih =>
      cases values with
      | nil => rfl
      | cons x values =>
          rw [writeBack_cons, ih (List.not_mem_of_not_mem_cons hi),
            List.getElem?_set_ne (Ne.symm (List.ne_of_not_mem_cons hi))]

/-- Writing exchanges the old values for the new ones. -/
theorem writeBack_append_perm (hnodup : places.Nodup) (hbound : ∀ i ∈ places, i < l.length)
    (hlength : values.length = places.length) :
    (writeBack l places values ++ places.filterMap (l[·]?)).Perm (l ++ values) := by
  induction places generalizing l values with
  | nil =>
      rw [List.eq_nil_of_length_eq_zero hlength]
      exact .refl _
  | cons i places ih =>
      obtain ⟨x, values, rfl⟩ := List.exists_cons_of_length_eq_add_one hlength
      obtain ⟨hi, hnodup⟩ := List.nodup_cons.mp hnodup
      have hlt := hbound i (by simp)
      have hbound' : ∀ j ∈ places, j < (l.set i x).length := fun j hj => by
        rw [List.length_set]
        exact hbound j (List.mem_cons_of_mem _ hj)
      have hlater := ih hnodup hbound' (Nat.succ.inj hlength)
      have hold : places.filterMap ((l.set i x)[·]?) = places.filterMap (l[·]?) :=
        List.filterMap_congr fun j hj =>
          List.getElem?_set_ne (Ne.symm (ne_of_mem_of_not_mem hj hi))
      have hset : (l.set i x ++ [l[i]]).Perm (l ++ [x]) := by
        rw [List.set_eq_take_append_cons_drop, if_pos hlt]
        conv_rhs => rw [← List.take_append_drop i l, List.drop_eq_getElem_cons hlt]
        rw [List.append_assoc, List.append_assoc]
        refine List.Perm.append_left _ ?_
        calc (x :: l.drop (i + 1) ++ [l[i]]).Perm (l[i] :: x :: l.drop (i + 1)) :=
              List.perm_append_singleton _ _
          _ |>.Perm (x :: l[i] :: l.drop (i + 1)) := .swap _ _ _
          _ |>.Perm (l[i] :: l.drop (i + 1) ++ [x]) := (List.perm_append_singleton _ _).symm
      rw [hold] at hlater
      rw [writeBack_cons, List.filterMap_cons_some (List.getElem?_eq_getElem hlt)]
      calc (writeBack (l.set i x) places values ++ l[i] :: places.filterMap (l[·]?)).Perm
            (l[i] :: (writeBack (l.set i x) places values ++ places.filterMap (l[·]?))) :=
            List.perm_middle
        _ |>.Perm (l[i] :: (l.set i x ++ values)) := hlater.cons _
        _ |>.Perm ((l.set i x ++ [l[i]]) ++ values) := by
            rw [List.append_assoc]; exact List.perm_middle.symm
        _ |>.Perm ((l ++ [x]) ++ values) := hset.append_right _
        _ |>.Perm (l ++ x :: values) := by rw [List.append_assoc]; exact .refl _

end WriteBack

end Chronicle.Library.Groups
