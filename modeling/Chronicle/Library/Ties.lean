import Chronicle.Library.StableSort
import Mathlib.Data.List.Dedup
import Mathlib.Logic.Relation

/-!
# Reorderings of tied elements

The elements of a sorted list that have one key are tied. A reordering moves only tied elements; it
is a sequence of exchanges of neighbours.
-/

namespace Chronicle.Library.Ties

open Chronicle.Library.StableSort

variable {α β κ : Type*} [LinearOrder κ] (key : α → κ)

/-- The elements are rearranged, and the keys stay where they are. -/
def Reordering (l l' : List α) : Prop := l'.Perm l ∧ l'.map key = l.map key

/-- The groups of elements with one key, as the keys follow each other. -/
def ties (l : List α) : List (List α) :=
  (l.map key).dedup.map fun k => l.filter fun x => key x = k

variable {key} {l l' : List α}

/-! ## Groups -/

theorem key_eq_of_mem_ties {g : List α} (hg : g ∈ ties key l) {x y : α} (hx : x ∈ g) (hy : y ∈ g) :
    key x = key y := by
  obtain ⟨k, -, rfl⟩ := List.mem_map.mp hg
  rw [of_decide_eq_true (List.mem_filter.mp hx).2, of_decide_eq_true (List.mem_filter.mp hy).2]

theorem ne_nil_of_mem_ties {g : List α} (hg : g ∈ ties key l) : g ≠ [] := by
  obtain ⟨k, hk, rfl⟩ := List.mem_map.mp hg
  obtain ⟨x, hx, rfl⟩ := List.mem_map.mp (List.mem_dedup.mp hk)
  exact List.ne_nil_of_mem (List.mem_filter.mpr ⟨hx, decide_eq_true rfl⟩)

/-- The least key of a sorted list comes first among the keys. -/
theorem dedup_eq_cons_of_le {k : κ} {keys : List κ} (hsorted : keys.Pairwise (· ≤ ·))
    (hmem : k ∈ keys) (hle : ∀ k' ∈ keys, k ≤ k') : ∃ rest, keys.dedup = k :: rest := by
  induction keys with
  | nil => exact absurd hmem List.not_mem_nil
  | cons first keys ih =>
      obtain ⟨hfirst, hkeys⟩ := List.pairwise_cons.mp hsorted
      by_cases hagain : first ∈ keys
      · rw [List.dedup_cons_of_mem hagain]
        refine ih hkeys ?_ fun k' hk' => hle k' (List.mem_cons_of_mem first hk')
        rcases List.mem_cons.mp hmem with rfl | hmem
        · exact hagain
        · exact hmem
      · rw [List.dedup_cons_of_notMem hagain]
        refine ⟨keys.dedup, ?_⟩
        rcases List.mem_cons.mp hmem with rfl | hmem
        · rfl
        · exact absurd (le_antisymm (hfirst k hmem) (hle first List.mem_cons_self) ▸ hmem) hagain

/-- A sorted list is its groups one after another. -/
theorem flatten_ties (hsorted : l.Pairwise fun x y => key x ≤ key y) :
    (ties key l).flatten = l := by
  induction l with
  | nil => rfl
  | cons x l ih =>
      obtain ⟨hx, hl⟩ := List.pairwise_cons.mp hsorted
      have hother : ∀ keys : List κ, key x ∉ keys →
          (keys.map fun k => (x :: l).filter fun y => key y = k) =
            keys.map fun k => l.filter fun y => key y = k := by
        intro keys hkeys
        refine List.map_congr_left fun k hk => List.filter_cons_of_neg ?_
        simp only [decide_eq_true_eq]
        rintro rfl
        exact hkeys hk
      have hself : (x :: l).filter (fun y => key y = key x) =
          x :: l.filter fun y => key y = key x := List.filter_cons_of_pos (by simp)
      by_cases hagain : key x ∈ l.map key
      · have hkeys : (l.map key).Pairwise (· ≤ ·) := List.pairwise_map.mpr hl
        obtain ⟨rest, hrest⟩ := dedup_eq_cons_of_le hkeys hagain fun k hk => by
          obtain ⟨y, hy, rfl⟩ := List.mem_map.mp hk
          exact hx y hy
        have hnot : key x ∉ rest := by
          have hnodup := List.nodup_dedup (l.map key)
          rw [hrest] at hnodup
          exact (List.nodup_cons.mp hnodup).1
        have hgroups := ih hl
        rw [ties, hrest, List.map_cons, List.flatten_cons] at hgroups
        rw [ties, List.map_cons, List.dedup_cons_of_mem hagain, hrest, List.map_cons,
          List.flatten_cons, hself, hother rest hnot, List.cons_append, hgroups]
      · have hnone : l.filter (fun y => key y = key x) = [] := by
          refine List.filter_eq_nil_iff.mpr fun y hy heq => hagain ?_
          exact List.mem_map.mpr ⟨y, hy, of_decide_eq_true heq⟩
        rw [ties, List.map_cons, List.dedup_cons_of_notMem hagain, List.map_cons,
          List.flatten_cons, hself, hnone,
          hother _ fun hmem => hagain (List.mem_dedup.mp hmem), ← ties, ih hl]
        rfl

/-- A reordering rearranges each group. -/
theorem Reordering.forall₂_ties (h : Reordering key l l') :
    List.Forall₂ List.Perm (ties key l) (ties key l') := by
  rw [ties, ties, h.2, List.forall₂_map_left_iff, List.forall₂_map_right_iff]
  exact List.forall₂_same.mpr fun k _ => (h.1.filter _).symm

theorem exists_perm_cons {g : List α} {x : α} (hx : x ∈ g) : ∃ rest, g.Perm (x :: rest) := by
  obtain ⟨first, last, rfl⟩ := List.append_of_mem hx
  exact ⟨first ++ last, List.perm_middle⟩

/-- Two elements that pass a test can be put first. -/
theorem exists_perm_cons_cons {g : List α} {p : α → Bool} (h : 2 ≤ (g.filter p).length) :
    ∃ x y rest, g.Perm (x :: y :: rest) ∧ p x = true ∧ p y = true := by
  match hfilter : g.filter p, h with
  | x :: y :: more, _ =>
      have hperm := (List.filter_append_perm p g).symm
      rw [hfilter] at hperm
      have hx : x ∈ g.filter p := by simp [hfilter]
      have hy : y ∈ g.filter p := by simp [hfilter]
      exact ⟨x, y, _, hperm, (List.mem_filter.mp hx).2, (List.mem_filter.mp hy).2⟩

theorem perm_flatten_of_forall₂ {gs gs' : List (List α)} (h : List.Forall₂ List.Perm gs gs') :
    gs'.flatten.Perm gs.flatten := by
  induction h with
  | nil => rfl
  | cons hg _ ih => exact hg.symm.append ih

/-- Whatever is done within the groups is a reordering. -/
theorem reordering_of_forall₂ (hsorted : l.Pairwise fun x y => key x ≤ key y)
    {gs : List (List α)} (h : List.Forall₂ List.Perm (ties key l) gs) :
    Reordering key l gs.flatten := by
  have hkeys : ∀ {groups gs : List (List α)}, List.Forall₂ List.Perm groups gs →
      (∀ g ∈ groups, g ∈ ties key l) → gs.flatten.map key = groups.flatten.map key := by
    intro groups gs hperm
    induction hperm with
    | nil => exact fun _ => rfl
    | @cons g g' groups gs hg _ ih =>
        intro hmem
        have hfirst : g'.map key = g.map key := by
          refine List.ext_getElem (by simp [hg.length_eq]) fun i hi hi' => ?_
          rw [List.getElem_map, List.getElem_map]
          exact key_eq_of_mem_ties (hmem g List.mem_cons_self)
            (hg.mem_iff.mpr (List.getElem_mem _)) (List.getElem_mem _)
        rw [List.flatten_cons, List.flatten_cons, List.map_append, List.map_append, hfirst,
          ih fun g hg => hmem g (List.mem_cons_of_mem _ hg)]
  have hflat := flatten_ties hsorted
  refine ⟨?_, ?_⟩
  · have hperm := perm_flatten_of_forall₂ h
    rwa [hflat] at hperm
  · rw [hkeys h fun _ hg => hg, hflat]

/-! ## Exchanges -/

/-- Two neighbours of one group change places. -/
inductive Exchange : List (List α) → List (List α) → Prop where
  | intro (before : List (List α)) (first : List α) (x y : α) (last : List α)
      (after : List (List α)) :
      Exchange (before ++ (first ++ x :: y :: last) :: after)
        (before ++ (first ++ y :: x :: last) :: after)

theorem Exchange.cons {gs gs' : List (List α)} (g : List α) (h : Exchange gs gs') :
    Exchange (g :: gs) (g :: gs') := by
  obtain ⟨before, first, x, y, last, after⟩ := h
  exact .intro (g :: before) first x y last after

/-! ## Selections -/

theorem Reordering.pairwise (h : Reordering key l l')
    (hsorted : l.Pairwise fun x y => key x ≤ key y) : l'.Pairwise fun x y => key x ≤ key y := by
  have hkeys : (l'.map key).Pairwise (· ≤ ·) := h.2 ▸ List.pairwise_map.mpr hsorted
  exact List.pairwise_map.mp hkeys

/-- A rearrangement that is sorted again leaves the keys where they are. -/
theorem reordering_of_pairwise (hperm : l'.Perm l) (hsorted : l.Pairwise fun x y => key x ≤ key y)
    (hsorted' : l'.Pairwise fun x y => key x ≤ key y) : Reordering key l l' :=
  ⟨hperm, (hperm.map key).eq_of_pairwise (fun _ _ _ _ => le_antisymm)
    (List.pairwise_map.mpr hsorted') (List.pairwise_map.mpr hsorted)⟩

theorem Reordering.filter (h : Reordering key l l')
    (hsorted : l.Pairwise fun x y => key x ≤ key y) (p : α → Bool) :
    Reordering key (l.filter p) (l'.filter p) :=
  reordering_of_pairwise (h.1.filter p) (hsorted.filter p) ((h.pairwise hsorted).filter p)

/-- A reordering of a selection comes from a reordering of the whole list. -/
theorem exists_reordering_of_filter (hsorted : l.Pairwise fun x y => key x ≤ key y) (p : α → Bool)
    {m : List α} (h : Reordering key (l.filter p) m) :
    ∃ l', Reordering key l l' ∧ l'.filter p = m := by
  have hsortedm := h.pairwise (hsorted.filter p)
  have hm : m.filter p = m :=
    List.filter_eq_self.mpr fun x hx => (List.mem_filter.mp (h.1.mem_iff.mp hx)).2
  have hothers : (l.filter fun x => !p x).filter p = [] :=
    List.filter_eq_nil_iff.mpr fun x hx => by simpa using (List.mem_filter.mp hx).2
  have hselect : (m ++ l.filter fun x => !p x).filter p = m := by
    rw [List.filter_append, hm, hothers, List.append_nil]
  refine ⟨sortByKey key (m ++ l.filter fun x => !p x), ?_, ?_⟩
  · refine reordering_of_pairwise ?_ hsorted (pairwise_sortByKey key _)
    refine (perm_sortByKey key _).trans ?_
    exact (h.1.append_right _).trans (List.filter_append_perm p l)
  · rw [filter_sortByKey (by rwa [hselect]), hselect]

end Chronicle.Library.Ties
