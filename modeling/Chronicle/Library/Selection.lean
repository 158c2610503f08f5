import Mathlib.Data.List.Basic

/-!
# Selecting elements and mapping their places back

The elements of a list that pass a test, and the ascending list of their places. A place in the
selection is mapped back to a place in the list through the latter.
-/

namespace Chronicle.Library.Selection

variable {α : Type*}

/-- The ascending places of the elements that pass the test. -/
def places (p : α → Bool) (l : List α) : List Nat :=
  (l.zipIdx.filter fun entry => p entry.1).map Prod.snd

/-- A place in the selection, mapped back. -/
def placeOf (p : α → Bool) (l : List α) (index : Nat) : Nat := (places p l).getD index 0

variable (p : α → Bool) (l : List α)

/-- Selecting keeps the elements. -/
theorem selected_fst : (l.zipIdx.filter fun entry => p entry.1).map Prod.fst = l.filter p := by
  have hfilter : l.zipIdx.filter (fun entry => p entry.1) = l.zipIdx.filter (p ∘ Prod.fst) := rfl
  rw [hfilter, ← List.filter_map, List.zipIdx_map_fst]

theorem length_places : (places p l).length = (l.filter p).length := by
  rw [places, List.length_map, ← selected_fst p l, List.length_map]

/-- The places ascend. -/
theorem places_increasing : (places p l).Pairwise (· < ·) := by
  rw [places, List.pairwise_map]
  refine List.Pairwise.filter _ ?_
  rw [← List.pairwise_map, List.zipIdx_map_snd]
  exact List.pairwise_lt_range'

variable {p l}

/-- The element at a place of the selection, in both lists. -/
theorem selected_getElem {index : Nat} (h : index < (l.filter p).length) :
    (l.zipIdx.filter fun entry => p entry.1)[index]? =
      ((l.filter p)[index]?).map fun x => (x, placeOf p l index) := by
  have hlength : index < (l.zipIdx.filter fun entry => p entry.1).length := by
    rwa [← selected_fst p l, List.length_map] at h
  rw [← selected_fst p l, List.getElem?_map, placeOf, places, List.getD_eq_getElem?_getD,
    List.getElem?_map, List.getElem?_eq_getElem hlength]
  rfl

/-- A place of the selection holds the same element in the list. -/
theorem getElem_placeOf {index : Nat} (h : index < (l.filter p).length) :
    l[placeOf p l index]? = (l.filter p)[index]? := by
  have hselected := selected_getElem h
  rw [List.getElem?_eq_getElem h, Option.map_some] at hselected
  rw [List.getElem?_eq_getElem h]
  exact List.mk_mem_zipIdx_iff_getElem?.mp
    (List.mem_of_mem_filter (List.mem_of_getElem? hselected))

/-- Numbering the selection and mapping the places back is numbering and then selecting. -/
theorem zipIdx_filter :
    (l.filter p).zipIdx.map (fun entry => (entry.1, placeOf p l entry.2)) =
      l.zipIdx.filter fun entry => p entry.1 := by
  refine List.ext_getElem? fun index => ?_
  rw [List.getElem?_map, List.getElem?_zipIdx]
  by_cases hindex : index < (l.filter p).length
  · rw [selected_getElem hindex]
    simp [List.getElem?_eq_getElem hindex]
  · have hlength : ¬ index < (l.zipIdx.filter fun entry => p entry.1).length := by
      rwa [← selected_fst p l, List.length_map] at hindex
    rw [List.getElem?_eq_none (by omega), List.getElem?_eq_none (by omega)]
    rfl

/-- When an element's images pass a test exactly when the element passes another, selecting the
images is selecting the elements. -/
theorem filter_flatMap_eq {β : Type*} {q : β → Bool} {f : α → List β}
    (h : ∀ x ∈ l, ∀ y ∈ f x, q y = p x) : (l.flatMap f).filter q = (l.filter p).flatMap f := by
  induction l with
  | nil => rfl
  | cons x rest ih =>
      have hrest := ih fun z hz => h z (List.mem_cons_of_mem _ hz)
      have himages := h x List.mem_cons_self
      rw [List.flatMap_cons, List.filter_append, hrest]
      cases hx : p x with
      | true =>
          have hall : (f x).filter q = f x :=
            List.filter_eq_self.mpr fun y hy => (himages y hy).trans hx
          simp [hx, hall]
      | false =>
          have hnone : (f x).filter q = [] :=
            List.filter_eq_nil_iff.mpr fun y hy => by simp [himages y hy, hx]
          simp [hx, hnone]

end Chronicle.Library.Selection
