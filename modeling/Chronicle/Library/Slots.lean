import Mathlib.Data.List.Perm.Basic
import Mathlib.Logic.Basic

/-!
# Records in the slots of a list

A list of slots, each of which gives at most one record. When one free slot is filled, or a filled
slot is appended, the collected records gain exactly that record.
-/

namespace Chronicle.Library.Slots

variable {α β : Type*} {read : α → Option β} {slots slots' : List α} {target : Nat} {record : β}

/-- The record of a position, none past the end. -/
def recordAt (read : α → Option β) (slots : List α) (i : Nat) : Option β := (slots[i]?).bind read

theorem recordAt_of_length_le (h : slots.length ≤ target) : recordAt read slots target = none := by
  rw [recordAt, List.getElem?_eq_none h, Option.bind_none]

/-- A change of one slot that keeps its record keeps all. -/
theorem recordAt_modify_of_keeps {change : α → α} (hkeeps : ∀ a, read (change a) = read a)
    (slots : List α) (index i : Nat) :
    recordAt read (slots.modify index change) i = recordAt read slots i := by
  unfold recordAt
  rw [List.getElem?_modify]
  cases slots[i]? with
  | none => rfl
  | some a =>
      show read (if index = i then change a else a) = read a
      split
      · exact hkeeps a
      · rfl

/-- A change of one slot that gives it a record leaves the others alone. -/
theorem recordAt_modify {change : α → α} {a : α} (ha : slots[target]? = some a)
    (hrecord : read (change a) = some record) (i : Nat) :
    recordAt read (slots.modify target change) i =
      if i = target then some record else recordAt read slots i := by
  unfold recordAt
  rw [List.getElem?_modify]
  split
  · rename_i heq
    subst heq
    simp [ha, hrecord]
  · rename_i hne
    simp [Ne.symm hne]

/-- An appended slot has its own record. -/
theorem recordAt_append (a : α) (slots : List α) (i : Nat) :
    recordAt read (slots ++ [a]) i =
      if i = slots.length then read a else recordAt read slots i := by
  unfold recordAt
  split
  · rename_i heq
    rw [heq, List.getElem?_concat_length, Option.bind_some]
  · rename_i hne
    rcases Nat.lt_or_gt_of_ne hne with hlt | hgt
    · rw [List.getElem?_append_left hlt]
    · have hpast : (slots ++ [a]).length ≤ i := by
        rw [List.length_append, List.length_singleton]
        exact hgt
      rw [List.getElem?_eq_none hpast, List.getElem?_eq_none (Nat.le_of_lt hgt)]

/-- Lists that agree in every record have the same records. -/
theorem filterMap_eq (h : ∀ i, recordAt read slots' i = recordAt read slots i) :
    slots'.filterMap read = slots.filterMap read := by
  induction slots' generalizing slots with
  | nil =>
      induction slots with
      | nil => rfl
      | cons a rest ih =>
          have ha : none = read a := h 0
          rw [List.filterMap_cons, ← ha]
          exact ih fun i => h (i + 1)
  | cons a' rest' ih =>
      cases slots with
      | nil =>
          have ha : read a' = none := h 0
          rw [List.filterMap_cons, ha]
          exact ih fun i => h (i + 1)
      | cons a rest =>
          have ha : read a' = read a := h 0
          rw [List.filterMap_cons, List.filterMap_cons, ha, ih fun i => h (i + 1)]

/-- Filling one free slot adds its record to the collected ones. -/
theorem filterMap_perm_cons (hfree : recordAt read slots target = none)
    (hfilled : ∀ i, recordAt read slots' i =
      if i = target then some record else recordAt read slots i) :
    (slots'.filterMap read).Perm (record :: slots.filterMap read) := by
  induction slots' generalizing slots target with
  | nil =>
      have hnone : none = some record := by simpa [recordAt] using hfilled target
      cases hnone
  | cons a' rest' ih =>
      -- the slots without the first; past the end there is nothing to drop
      have hfirst : slots.filterMap read =
          (recordAt read slots 0).toList ++ slots.tail.filterMap read := by
        cases slots with
        | nil => rfl
        | cons a rest =>
            rw [List.filterMap_cons]
            show _ = (read a).toList ++ rest.filterMap read
            cases read a <;> rfl
      have htail : ∀ i, recordAt read slots (i + 1) = recordAt read slots.tail i := by
        intro i
        cases slots <;> rfl
      have hlater : ∀ i, recordAt read rest' i =
          if i + 1 = target then some record else recordAt read slots.tail i := by
        intro i
        rw [← htail i]
        exact hfilled (i + 1)
      cases target with
      | zero =>
          have ha : read a' = some record := by simpa [recordAt] using hfilled 0
          have hrest : rest'.filterMap read = slots.tail.filterMap read :=
            filterMap_eq fun i => by simpa using hlater i
          rw [List.filterMap_cons, ha, hfirst, hfree, hrest]
          exact List.Perm.refl _
      | succ target =>
          have ha : read a' = recordAt read slots 0 := by simpa [recordAt] using hfilled 0
          have hrest := ih (htail target ▸ hfree) fun i => by simpa using hlater i
          rw [List.filterMap_cons, ha, hfirst]
          cases recordAt read slots 0 with
          | none => exact hrest
          | some first => exact (hrest.cons first).trans (List.Perm.swap record first _)

end Chronicle.Library.Slots
