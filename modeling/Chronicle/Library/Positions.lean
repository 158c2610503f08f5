import Mathlib.Data.List.Basic

/-!
# Positions that are noted and changed later

The selected elements of a list, each with its position. Changing a list at these positions, one
after the other, changes every selected element once and no other.
-/

namespace Chronicle.Library.Positions

variable {α : Type*} {select : α → Bool} {change : α → α → α}

/-- The selected elements with their positions, counted from `start`. -/
def positions (select : α → Bool) (start : Nat) (xs : List α) : List (α × Nat) :=
  (xs.zipIdx start).filter fun cell => select cell.1

/-- The list changed at the noted positions, in order. -/
def changeAt (change : α → α → α) (xs : List α) (noted : List (α × Nat)) : List α :=
  noted.foldl (fun current cell => current.modify cell.2 (change cell.1)) xs

@[simp]
theorem positions_nil (start : Nat) : positions select start [] = [] := rfl

theorem positions_cons (start : Nat) (x : α) (xs : List α) :
    positions select start (x :: xs) =
      (if select x then [(x, start)] else []) ++ positions select (start + 1) xs := by
  unfold positions
  rw [List.zipIdx_cons, List.filter_cons]
  split <;> rfl

theorem positions_append (start : Nat) (xs ys : List α) :
    positions select start (xs ++ ys) =
      positions select start xs ++ positions select (start + xs.length) ys := by
  unfold positions
  rw [List.zipIdx_append, List.filter_append, Nat.add_comm start]

theorem positions_eq_nil {start : Nat} {xs : List α} (h : ∀ x ∈ xs, select x = false) :
    positions select start xs = [] := by
  refine List.filter_eq_nil_iff.mpr fun cell hcell => ?_
  rw [h cell.1 (List.fst_mem_of_mem_zipIdx hcell)]
  exact Bool.false_ne_true

/-- A map that leaves the selected elements alone and selects no other keeps the notes. -/
theorem positions_map {f : α → α} {start : Nat} {xs : List α}
    (hselect : ∀ x ∈ xs, select (f x) = select x) (hkeeps : ∀ x ∈ xs, select x = true → f x = x) :
    positions select start (xs.map f) = positions select start xs := by
  induction xs generalizing start with
  | nil => rfl
  | cons x xs ih =>
    rw [List.forall_mem_cons] at hselect hkeeps
    rw [List.map_cons, positions_cons, positions_cons, hselect.1, ih hselect.2 hkeeps.2]
    split
    · rename_i hx
      rw [hkeeps.1 hx]
    · rfl

/-- The noted elements are the selected ones. -/
theorem map_fst_positions (start : Nat) (xs : List α) :
    (positions select start xs).map Prod.fst = xs.filter select := by
  induction xs generalizing start with
  | nil => rfl
  | cons x xs ih =>
    rw [positions_cons, List.map_append, ih, List.filter_cons]
    split <;> rfl

theorem mem_positions {start : Nat} {xs : List α} {cell : α × Nat}
    (h : cell ∈ positions select start xs) : cell.1 ∈ xs ∧ select cell.1 = true :=
  let ⟨hcell, hselect⟩ := List.mem_filter.mp h
  ⟨List.fst_mem_of_mem_zipIdx hcell, hselect⟩

/-- A noted position is a position of the list. -/
theorem lt_of_mem_positions {xs : List α} {cell : α × Nat} (h : cell ∈ positions select 0 xs) :
    cell.2 < xs.length := by
  have hcell := List.mem_zipIdx (List.mem_filter.mp h).1
  omega

/-- Every selected element is noted. -/
theorem exists_mem_positions (start : Nat) {xs : List α} {x : α} (h : x ∈ xs)
    (hselect : select x = true) : ∃ i, (x, i) ∈ positions select start xs := by
  obtain ⟨i, hi, rfl⟩ := List.getElem_of_mem h
  refine ⟨start + i, List.mem_filter.mpr ⟨?_, hselect⟩⟩
  rw [List.mk_add_mem_zipIdx_iff_getElem?]
  exact List.getElem?_eq_getElem hi

theorem modify_length (f : α → α) (done : List α) (x : α) (xs : List α) :
    (done ++ x :: xs).modify done.length f = done ++ f x :: xs := by
  induction done with
  | nil => rfl
  | cons y done ih => exact congrArg (y :: ·) ih

/-- Behind a list that is done, the noted positions are changed element by element. -/
theorem changeAt_append (done xs : List α) :
    changeAt change (done ++ xs) (positions select done.length xs) =
      done ++ xs.map fun x => if select x then change x x else x := by
  induction xs generalizing done with
  | nil => simp [changeAt]
  | cons x xs ih =>
    have hstep (y : α) : changeAt change (done ++ y :: xs) (positions select (done.length + 1) xs) =
        done ++ y :: xs.map fun x => if select x then change x x else x := by
      simpa using ih (done ++ [y])
    rw [positions_cons, List.map_cons]
    split
    · have hmodify : (done ++ x :: xs).modify done.length (change x) =
          done ++ change x x :: xs := modify_length (change x) done x xs
      rw [← hstep, changeAt, List.singleton_append, List.foldl_cons, hmodify]
      rfl
    · exact hstep x

theorem changeAt_positions (xs : List α) :
    changeAt change xs (positions select 0 xs) =
      xs.map fun x => if select x then change x x else x :=
  changeAt_append [] xs

end Chronicle.Library.Positions
