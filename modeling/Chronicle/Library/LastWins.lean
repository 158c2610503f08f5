import Chronicle.Library.StableSort

/-!
# The last of equal keys

A list of elements with keys, in which the last element of a key stands for it. Sorting by the keys,
with a sort that is stable, and keeping the last of each run gives the same as sorting what the rule
keeps.
-/

namespace Chronicle.Library.LastWins

open Chronicle.Library.StableSort

variable {α κ : Type*}

/-- The elements whose key does not come again. -/
def lastWins [DecidableEq κ] (key : α → κ) : List α → List α
  | [] => []
  | x :: rest => if key x ∈ rest.map key then lastWins key rest else x :: lastWins key rest

/-- The last element of each run of equal keys. -/
def collapse [DecidableEq κ] (key : α → κ) : List α → List α
  | [] => []
  | [x] => [x]
  | x :: next :: rest =>
      if key x = key next then collapse key (next :: rest) else x :: collapse key (next :: rest)

section Keys

variable [DecidableEq κ] {key : α → κ} {x : α} {l : List α}

/-- Every key is kept once. -/
theorem map_lastWins (key : α → κ) (l : List α) :
    (∀ k, k ∈ (lastWins key l).map key ↔ k ∈ l.map key) ∧ ((lastWins key l).map key).Nodup := by
  induction l with
  | nil => exact ⟨fun _ => Iff.rfl, List.nodup_nil⟩
  | cons x rest ih =>
      obtain ⟨hkeys, hnodup⟩ := ih
      unfold lastWins
      split
      · rename_i hagain
        refine ⟨fun k => (hkeys k).trans ?_, hnodup⟩
        rw [List.map_cons, List.mem_cons]
        exact ⟨Or.inr, fun h => h.elim (fun heq => heq ▸ hagain) id⟩
      · rename_i hlast
        refine ⟨fun k => ?_, List.nodup_cons.mpr ⟨(hkeys (key x)).not.mpr hlast, hnodup⟩⟩
        rw [List.map_cons, List.map_cons, List.mem_cons, List.mem_cons, hkeys]

/-- The last element of its key is kept. -/
theorem mem_lastWins {before after : List α} (hlast : key x ∉ after.map key) :
    x ∈ lastWins key (before ++ x :: after) := by
  induction before with
  | nil =>
      rw [List.nil_append, lastWins, if_neg hlast]
      exact List.mem_cons_self
  | cons first rest ih =>
      rw [List.cons_append, lastWins]
      split
      · exact ih
      · exact List.mem_cons_of_mem _ ih

/-- Another key that tells the same elements apart keeps the same ones. -/
theorem lastWins_comp {κ' : Type*} [DecidableEq κ'] {f : κ → κ'} (hinj : Function.Injective f)
    (key : α → κ) (l : List α) : lastWins (fun x => f (key x)) l = lastWins key l := by
  induction l with
  | nil => rfl
  | cons x rest ih =>
      have hkeys : f (key x) ∈ rest.map (fun x => f (key x)) ↔ key x ∈ rest.map key := by
        rw [← List.mem_map_of_injective hinj, List.map_map]
        rfl
      unfold lastWins
      simp only [hkeys, ih]

end Keys

section Sorted

variable [LinearOrder κ] {key : α → κ} {x : α} {l sorted : List α}

/-- An element in front of a sorted list is lost exactly if its key comes again. -/
theorem collapse_cons (hfirst : ∀ y ∈ sorted, key x ≤ key y)
    (hsorted : sorted.Pairwise fun a b => key a ≤ key b) :
    collapse key (x :: sorted) =
      if key x ∈ sorted.map key then collapse key sorted else x :: collapse key sorted := by
  cases sorted with
  | nil => rfl
  | cons next rest =>
      have hnext : key x ∈ (next :: rest).map key ↔ key x = key next := by
        refine ⟨fun hmem => ?_, fun heq => List.mem_cons.mpr (Or.inl heq)⟩
        obtain ⟨y, hy, heq⟩ := List.mem_map.mp hmem
        refine le_antisymm (hfirst next List.mem_cons_self) ?_
        rcases List.mem_cons.mp hy with rfl | hy
        · exact heq.le
        · exact ((List.pairwise_cons.mp hsorted).1 y hy).trans heq.le
      simp only [hnext]
      rfl

theorem mem_of_mem_collapse (h : x ∈ collapse key l) : x ∈ l := by
  fun_induction collapse key l with
  | case1 => exact h
  | case2 => exact h
  | case3 first next rest _ ih => exact List.mem_cons_of_mem _ (ih h)
  | case4 first next rest _ ih =>
      rcases List.mem_cons.mp h with rfl | h
      · exact List.mem_cons_self
      · exact List.mem_cons_of_mem _ (ih h)

/-- An element inserted before those of its key is lost exactly if there is one. -/
theorem collapse_orderedInsert (hsorted : sorted.Pairwise fun a b => key a ≤ key b) :
    collapse key (sorted.orderedInsert (fun a b => key a ≤ key b) x) =
      if key x ∈ sorted.map key then collapse key sorted
      else (collapse key sorted).orderedInsert (fun a b => key a ≤ key b) x := by
  induction sorted with
  | nil => rfl
  | cons first rest ih =>
      obtain ⟨hfirst, hrest⟩ := List.pairwise_cons.mp hsorted
      rw [List.orderedInsert_cons]
      split
      · rename_i hle
        have hbefore : ∀ y ∈ first :: rest, key x ≤ key y :=
          List.forall_mem_cons.mpr ⟨hle, fun y hy => hle.trans (hfirst y hy)⟩
        rw [collapse_cons hbefore hsorted]
        split
        · rfl
        · -- what is left of the runs still comes after the new element
          cases hcollapsed : collapse key (first :: rest) with
          | nil => rfl
          | cons head tail =>
              have hhead : head ∈ collapse key (first :: rest) :=
                hcollapsed ▸ List.mem_cons_self
              rw [List.orderedInsert_cons, if_pos (hbefore head (mem_of_mem_collapse hhead))]
      · -- the new element goes behind the head of the list, which is not of its key
        rename_i hgt
        have hne : key first ≠ key x := fun heq => hgt heq.ge
        have hinserted : key first ∈ (rest.orderedInsert (fun a b => key a ≤ key b) x).map key ↔
            key first ∈ rest.map key := by
          rw [((List.perm_orderedInsert _ x rest).map key).mem_iff, List.map_cons, List.mem_cons]
          exact or_iff_right hne
        have hbehind : ∀ y ∈ rest.orderedInsert (fun a b => key a ≤ key b) x,
            key first ≤ key y := fun y hy => by
          rcases List.mem_cons.mp ((List.perm_orderedInsert _ x rest).subset hy) with rfl | h
          · exact (not_le.mp hgt).le
          · exact hfirst y h
        have hstill : (rest.orderedInsert (fun a b => key a ≤ key b) x).Pairwise
            fun a b => key a ≤ key b :=
          haveI : Std.Total fun a b : α => key a ≤ key b := ⟨fun a b => le_total (key a) (key b)⟩
          haveI : IsTrans α fun a b => key a ≤ key b := ⟨fun _ _ _ => le_trans⟩
          hrest.orderedInsert x rest
        have hmem : key x ∈ (first :: rest).map key ↔ key x ∈ rest.map key := by
          rw [List.map_cons, List.mem_cons]
          exact or_iff_right hne.symm
        rw [collapse_cons hbehind hstill, collapse_cons hfirst hrest, ih hrest]
        simp only [hinserted, hmem]
        by_cases hagain : key first ∈ rest.map key
        · rw [if_pos hagain, if_pos hagain]
        · rw [if_neg hagain, if_neg hagain]
          split
          · rfl
          · rw [List.orderedInsert_cons, if_neg hgt]

/-- Sorting stably and keeping the last of each run is keeping the last of each key and sorting. -/
theorem collapse_sortByKey (key : α → κ) (l : List α) :
    collapse key (sortByKey key l) = sortByKey key (lastWins key l) := by
  induction l with
  | nil => rfl
  | cons x rest ih =>
      have hcons : sortByKey key (x :: rest) =
          (sortByKey key rest).orderedInsert (fun a b => key a ≤ key b) x := rfl
      have hkeys : key x ∈ (sortByKey key rest).map key ↔ key x ∈ rest.map key :=
        ((perm_sortByKey key rest).map key).mem_iff
      rw [hcons, collapse_orderedInsert (pairwise_sortByKey key rest), ih, lastWins]
      simp only [hkeys]
      split
      · rfl
      · rfl

end Sorted

end Chronicle.Library.LastWins
