import Mathlib.Data.List.Forall2

/-!
# Greedy matching

Elements are wanted in an order, and a list is walked once: the next one that is wanted takes the
first element that suits it. If the elements can be matched in their order at all, the walk matches
them.
-/

namespace Chronicle.Library.GreedyMatching

variable {α β : Type*} (suits : α → β → Bool)

/-- What is still wanted after the walk. -/
def leftover : List α → List β → List α
  | [], _ => []
  | wanted, [] => wanted
  | first :: wanted, element :: elements =>
      if suits first element then leftover wanted elements
      else leftover (first :: wanted) elements

variable {suits} {wanted : List α} {elements : List β}

@[simp]
theorem leftover_nil : leftover suits [] elements = [] := by rw [leftover]

/-- Less can be matched where more can. -/
theorem sublistForall₂_of_cons {R : α → β → Prop} {first : α}
    (h : List.SublistForall₂ R (first :: wanted) elements) : List.SublistForall₂ R wanted elements := by
  generalize hall : first :: wanted = all at h
  induction h with
  | nil => cases hall
  | cons _ hrest _ =>
      cases hall
      exact .cons_right hrest
  | cons_right _ ih => exact .cons_right (ih hall)

/-- The first element that suits may be taken. -/
theorem sublistForall₂_cons_iff {R : α → β → Prop} {first : α} {element : β} (h : R first element) :
    List.SublistForall₂ R (first :: wanted) (element :: elements) ↔
      List.SublistForall₂ R wanted elements := by
  refine ⟨?_, fun hrest => .cons h hrest⟩
  intro hall
  cases hall with
  | cons _ hrest => exact hrest
  | cons_right hlater => exact sublistForall₂_of_cons hlater

theorem leftover_eq_nil_iff : leftover suits wanted elements = [] ↔
    List.SublistForall₂ (fun a b => suits a b = true) wanted elements := by
  induction elements generalizing wanted with
  | nil =>
      cases wanted with
      | nil => exact iff_of_true leftover_nil .nil
      | cons first wanted =>
          refine iff_of_false ?_ nofun
          simp [leftover]
  | cons element elements ih =>
      cases wanted with
      | nil => exact iff_of_true leftover_nil .nil
      | cons first wanted =>
          rw [leftover]
          split
          · next hsuits =>
              exact ih.trans (sublistForall₂_cons_iff (R := fun a b => suits a b = true) hsuits).symm
          · next hsuits =>
              rw [ih]
              refine ⟨fun hlater => .cons_right hlater, ?_⟩
              intro hall
              cases hall with
              | cons hfirst _ => exact absurd hfirst hsuits
              | cons_right hlater => exact hlater

end Chronicle.Library.GreedyMatching
