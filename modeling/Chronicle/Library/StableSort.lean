import Mathlib.Data.List.Forall2
import Mathlib.Data.List.Sort
import Mathlib.Data.List.TakeWhile
import Mathlib.Data.Prod.Lex

/-!
# Stable sorting and selection

`List.mergeSort` is stable. Hence sorting commutes with selecting, and in the sorted list equal
keys keep the order they had.
-/

namespace Chronicle.Library.StableSort

variable {α : Type*}

/-- A list splits in only one way into a part that fails a test and a part that passes it. -/
theorem split_unique {p : α → Bool} {first second first' second' : List α}
    (h : first ++ second = first' ++ second') (hfirst : ∀ x ∈ first, p x = false)
    (hsecond : ∀ x ∈ second, p x = true) (hfirst' : ∀ x ∈ first', p x = false)
    (hsecond' : ∀ x ∈ second', p x = true) : first = first' ∧ second = second' := by
  have hfilter := congrArg (List.filter p) h
  have hother := congrArg (List.filter fun x => !p x) h
  have hnone : ∀ {l : List α}, (∀ x ∈ l, p x = false) → l.filter p = [] :=
    fun hl => List.filter_eq_nil_iff.mpr fun x hx => by simp [hl x hx]
  have hall : ∀ {l : List α}, (∀ x ∈ l, p x = true) → l.filter p = l :=
    fun hl => List.filter_eq_self.mpr hl
  have hkeep : ∀ {l : List α}, (∀ x ∈ l, p x = false) → l.filter (fun x => !p x) = l :=
    fun hl => List.filter_eq_self.mpr fun x hx => by simp [hl x hx]
  have hdrop : ∀ {l : List α}, (∀ x ∈ l, p x = true) → l.filter (fun x => !p x) = [] :=
    fun hl => List.filter_eq_nil_iff.mpr fun x hx => by simp [hl x hx]
  rw [List.filter_append, List.filter_append, hnone hfirst, hnone hfirst', hall hsecond,
    hall hsecond'] at hfilter
  rw [List.filter_append, List.filter_append, hkeep hfirst, hkeep hfirst', hdrop hsecond,
    hdrop hsecond'] at hother
  exact ⟨by simpa using hother, by simpa using hfilter⟩

section Total

variable (le : α → α → Bool)
variable (trans : ∀ a b c, le a b = true → le b c = true → le a c = true)
variable (total : ∀ a b, (le a b || le b a) = true)

include trans total

/-- Where the sort puts one more element: after the elements below it, before all others. -/
theorem mergeSort_cons_split (x : α) (l : List α) :
    ∃ below above, (x :: l).mergeSort le = below ++ x :: above ∧
      l.mergeSort le = below ++ above ∧ (∀ y ∈ below, le x y = false) ∧
      ∀ y ∈ above, le x y = true := by
  obtain ⟨below, above, hcons, hsort, hbelow⟩ := List.mergeSort_cons trans total x l
  refine ⟨below, above, hcons, hsort, fun y hy => by simpa using hbelow y hy, ?_⟩
  have hpairwise := List.pairwise_mergeSort trans total (x :: l)
  rw [hcons, List.pairwise_append] at hpairwise
  exact (List.pairwise_cons.mp hpairwise.2.1).1

/-- Selecting from a sorted list is sorting the selection. -/
theorem filter_mergeSort (p : α → Bool) (l : List α) :
    (l.mergeSort le).filter p = (l.filter p).mergeSort le := by
  induction l with
  | nil => simp
  | cons x l ih =>
      obtain ⟨below, above, hcons, hsort, hbelow, habove⟩ :=
        mergeSort_cons_split le trans total x l
      rw [hsort, List.filter_append] at ih
      rw [hcons, List.filter_append]
      by_cases hx : p x = true
      · obtain ⟨below', above', hcons', hsort', hbelow', habove'⟩ :=
          mergeSort_cons_split le trans total x (l.filter p)
        rw [hsort'] at ih
        obtain ⟨hfirst, hsecond⟩ := split_unique (p := le x) ih
          (fun y hy => hbelow y (List.mem_of_mem_filter hy))
          (fun y hy => habove y (List.mem_of_mem_filter hy)) hbelow' habove'
        rw [List.filter_cons_of_pos hx, List.filter_cons_of_pos hx, hcons', hfirst, hsecond]
      · rw [List.filter_cons_of_neg hx, List.filter_cons_of_neg hx]
        exact ih

/-- Elements the order does not tell apart keep whatever order they had. -/
theorem pairwise_mergeSort_stable {R : α → α → Prop} {l : List α} (h : l.Pairwise R) :
    (l.mergeSort le).Pairwise fun a b => le a b = true ∧ (le b a = true → R a b) := by
  induction l with
  | nil => simp
  | cons x l ih =>
      rw [List.pairwise_cons] at h
      obtain ⟨below, above, hcons, hsort, hbelow, habove⟩ :=
        mergeSort_cons_split le trans total x l
      have hold := ih h.2
      rw [hsort, List.pairwise_append] at hold
      have hmem : ∀ y ∈ above, y ∈ l := fun y hy => by
        have hmem := List.mem_append_right below hy
        rw [← hsort] at hmem
        exact List.mem_mergeSort.mp hmem
      rw [hcons, List.pairwise_append]
      refine ⟨hold.1, List.pairwise_cons.mpr ⟨fun y hy => ⟨habove y hy, fun _ =>
        h.1 y (hmem y hy)⟩, hold.2.1⟩, fun y hy z hz => ?_⟩
      rcases List.mem_cons.mp hz with rfl | hz
      · have hbefore := total y z
        rw [hbelow y hy, Bool.or_false] at hbefore
        exact ⟨hbefore, fun hle => by simp [hbelow y hy] at hle⟩
      · exact hold.2.2 y hy z hz

end Total

section Related

variable {β : Type*} {R : α → β → Prop} {r : α → α → Prop} {s : β → β → Prop} [DecidableRel r]
  [DecidableRel s]

/-- Insertion sorts whose orders agree on related elements keep related lists related. -/
theorem forall₂_insertionSort (hagree : ∀ {x y x' y'}, R x y → R x' y' → (r x x' ↔ s y y'))
    {l : List α} {l' : List β} (h : List.Forall₂ R l l') :
    List.Forall₂ R (l.insertionSort r) (l'.insertionSort s) := by
  have hinsert : ∀ {x y} {k : List α} {k' : List β}, R x y → List.Forall₂ R k k' →
      List.Forall₂ R (k.orderedInsert r x) (k'.orderedInsert s y) := by
    intro x y k k' hxy hk
    induction hk with
    | nil => exact .cons hxy .nil
    | cons hhead htail ih =>
        rw [List.orderedInsert_cons, List.orderedInsert_cons]
        simp only [hagree hxy hhead]
        split
        · exact .cons hxy (.cons hhead htail)
        · exact .cons hhead ih
  induction h with
  | nil => exact .nil
  | cons hhead _ ih => exact hinsert hhead ih

end Related

section ByKey

variable {κ : Type*} [LinearOrder κ] (key : α → κ)

/-- The stable sort by a key. -/
def sortByKey (l : List α) : List α := l.insertionSort fun a b => key a ≤ key b

variable {key} {l : List α}

theorem perm_sortByKey (key : α → κ) (l : List α) : (sortByKey key l).Perm l :=
  List.perm_insertionSort _ l

@[simp]
theorem mem_sortByKey {x : α} : x ∈ sortByKey key l ↔ x ∈ l := (perm_sortByKey key l).mem_iff

@[simp]
theorem length_sortByKey : (sortByKey key l).length = l.length := (perm_sortByKey key l).length_eq

theorem pairwise_sortByKey (key : α → κ) (l : List α) :
    (sortByKey key l).Pairwise fun a b => key a ≤ key b :=
  haveI : Std.Total fun a b : α => key a ≤ key b := ⟨fun a b => le_total (key a) (key b)⟩
  haveI : IsTrans α fun a b => key a ≤ key b := ⟨fun _ _ _ => le_trans⟩
  List.pairwise_insertionSort _ l

/-- A list that is in order stays as it is. -/
theorem sortByKey_eq_self (h : l.Pairwise fun a b => key a ≤ key b) : sortByKey key l = l :=
  List.Pairwise.insertionSort_eq h

/-- The first element of a sorted list that passes a test has the least key of all that do. -/
theorem find_least {p : α → Bool} {x : α} (h : l.Pairwise fun a b => key a ≤ key b)
    (hfind : l.find? p = some x) {y : α} (hy : y ∈ l) (hp : p y = true) : key x ≤ key y := by
  obtain ⟨_, before, after, rfl, hbefore⟩ := List.find?_eq_some_iff_append.mp hfind
  rcases List.mem_append.mp hy with hy | hy
  · exact absurd hp (by simpa using hbefore y hy)
  · rcases List.mem_cons.mp hy with rfl | hy
    · exact le_rfl
    · exact List.rel_of_pairwise_cons (List.pairwise_append.mp h).2.1 hy

/-- Elements that were in order before the sort keep their places among themselves. -/
theorem filter_sortByKey {p : α → Bool} (h : (l.filter p).Pairwise fun a b => key a ≤ key b) :
    (sortByKey key l).filter p = l.filter p := by
  have hsublist : (l.filter p).Sublist (sortByKey key l) :=
    List.sublist_insertionSort h List.filter_sublist
  have hfiltered := hsublist.filter p
  simp only [List.filter_filter, Bool.and_self] at hfiltered
  exact (hfiltered.eq_of_length ((perm_sortByKey key l).filter p).length_eq.symm).symm

/-- Selecting after an insertion is inserting into the selection, if the new element passes. -/
theorem filter_orderedInsert {p : α → Bool} {x : α} {sorted : List α}
    (hsorted : sorted.Pairwise fun a b => key a ≤ key b) (hx : p x = true) :
    (sorted.orderedInsert (fun a b => key a ≤ key b) x).filter p =
      (sorted.filter p).orderedInsert (fun a b => key a ≤ key b) x := by
  induction sorted with
  | nil => simp [hx]
  | cons y sorted ih =>
      by_cases hle : key x ≤ key y
      · rw [List.orderedInsert_cons, if_pos hle, List.filter_cons_of_pos hx]
        -- whatever is selected comes after the new element
        have hall : ∀ z ∈ (y :: sorted).filter p, key x ≤ key z := fun z hz => by
          rcases List.mem_cons.mp (List.mem_of_mem_filter hz) with rfl | hz
          · exact hle
          · exact hle.trans (List.rel_of_pairwise_cons hsorted hz)
        generalize (y :: sorted).filter p = selected at hall ⊢
        cases selected with
        | nil => rfl
        | cons z selected => rw [List.orderedInsert_cons, if_pos (hall z List.mem_cons_self)]
      · rw [List.orderedInsert_cons, if_neg hle]
        by_cases hy : p y = true
        · rw [List.filter_cons_of_pos hy, List.filter_cons_of_pos hy,
            List.orderedInsert_cons, if_neg hle, ih hsorted.of_cons]
        · rw [List.filter_cons_of_neg hy, List.filter_cons_of_neg hy, ih hsorted.of_cons]

/-- Selecting from a list sorted by a key is sorting the selection. -/
theorem filter_sortByKey_eq (p : α → Bool) (l : List α) :
    (sortByKey key l).filter p = sortByKey key (l.filter p) := by
  induction l with
  | nil => rfl
  | cons x l ih =>
      have hcons : ∀ l', sortByKey key (x :: l') =
          (sortByKey key l').orderedInsert (fun a b => key a ≤ key b) x := fun _ => rfl
      rw [hcons]
      by_cases hx : p x = true
      · rw [List.filter_cons_of_pos hx, hcons, ← ih,
          filter_orderedInsert (pairwise_sortByKey key l) hx]
      · rw [List.filter_cons_of_neg hx, ← ih, List.orderedInsert_eq_take_drop,
          List.filter_append, List.filter_cons_of_neg hx, ← List.filter_append,
          List.takeWhile_append_dropWhile]

/-- Keys that tell the elements apart leave only one sorted list of them. -/
theorem eq_sortByKey {sorted : List α} (hperm : sorted.Perm l)
    (hsorted : sorted.Pairwise fun a b => key a ≤ key b)
    (hinj : ∀ a ∈ l, ∀ b ∈ l, key a = key b → a = b) : sorted = sortByKey key l := by
  refine (hperm.trans (perm_sortByKey key l).symm).eq_of_pairwise ?_ hsorted
    (pairwise_sortByKey key l)
  intro a b ha hb hab hba
  exact hinj a (hperm.mem_iff.mp ha) b (mem_sortByKey.mp hb) (le_antisymm hab hba)

/-- The stable sort is the sort by the keys and, where these agree, by the places. -/
theorem sortByKey_eq_sortByKey_lex (rank : α → ℕ) (hrank : l.Pairwise fun a b => rank a < rank b)
    (hinj : ∀ a ∈ l, ∀ b ∈ l, rank a = rank b → a = b) :
    sortByKey key l = sortByKey (fun x => toLex (key x, rank x)) l := by
  refine eq_sortByKey (perm_sortByKey key l) ?_ fun a ha b hb h => hinj a ha b hb ?_
  · refine List.pairwise_iff_forall_sublist.mpr fun {a b} hsub => ?_
    have hle := List.pairwise_iff_forall_sublist.mp (pairwise_sortByKey key l) hsub
    rw [Prod.Lex.le_iff]
    rcases hle.lt_or_eq with hlt | heq
    · exact .inl hlt
    · refine .inr ⟨heq, ?_⟩
      have hplaces : (sortByKey key l).filter (fun x => key x = key a) =
          l.filter fun x => key x = key a := by
        refine filter_sortByKey (List.pairwise_of_forall_mem_list fun x hx y hy => ?_)
        rw [of_decide_eq_true (List.mem_filter.mp hx).2, of_decide_eq_true (List.mem_filter.mp hy).2]
      have hpair := hsub.filter fun x => key x = key a
      rw [hplaces] at hpair
      have hfilter : [a, b].filter (fun x => key x = key a) = [a, b] := by simp [heq]
      rw [hfilter] at hpair
      exact (List.pairwise_iff_forall_sublist.mp hrank (hpair.trans List.filter_sublist)).le
  · exact congrArg (fun pair => (ofLex pair).2) h

/-- Sorting what a map makes is mapping the sort. -/
theorem sortByKey_map {β : Type*} (make : β → α) (l : List β) :
    sortByKey key (l.map make) = (sortByKey (fun b => key (make b)) l).map make :=
  (List.map_insertionSort _ _ make l fun _ _ _ _ => Iff.rfl).symm

/-- What the sort of a list shows of its elements does not depend on the order of the list, if equal
keys show the same. -/
theorem map_sortByKey_eq_of_perm {β : Type*} {shown : α → β} {l' : List α} (h : l.Perm l')
    (hties : ∀ x ∈ l, ∀ y ∈ l, key x = key y → shown x = shown y) :
    (sortByKey key l').map shown = (sortByKey key l).map shown := by
  have hkeys : (sortByKey key l').map key = (sortByKey key l).map key := by
    have hperm : ((sortByKey key l').map key).Perm ((sortByKey key l).map key) :=
      ((perm_sortByKey key l').trans (h.symm.trans (perm_sortByKey key l).symm)).map key
    refine hperm.eq_of_pairwise ?_ (List.pairwise_map.mpr (pairwise_sortByKey key l'))
      (List.pairwise_map.mpr (pairwise_sortByKey key l))
    intro a b _ _ hab hba
    exact le_antisymm hab hba
  have hlength : (sortByKey key l').length = (sortByKey key l).length := by
    rw [length_sortByKey, length_sortByKey, h.length_eq]
  refine List.ext_getElem (by rw [List.length_map, List.length_map, hlength]) ?_
  intro i hleft hright
  rw [List.length_map] at hleft hright
  have hkey : key (sortByKey key l')[i] = key (sortByKey key l)[i] := by
    have hget := congrArg (·[i]?) hkeys
    simpa [List.getElem?_eq_getElem hleft, List.getElem?_eq_getElem hright] using hget
  have hmem : (sortByKey key l')[i] ∈ l :=
    h.mem_iff.mpr (mem_sortByKey.mp (List.getElem_mem hleft))
  have hmem' : (sortByKey key l)[i] ∈ l := mem_sortByKey.mp (List.getElem_mem hright)
  rw [List.getElem_map, List.getElem_map, hties _ hmem _ hmem' hkey]

/-- Two first elements with one key come next to each other, in the order they had. -/
theorem sortByKey_cons_cons {x y : α} (hkey : key x = key y) (l : List α) :
    ∃ before after, sortByKey key (x :: y :: l) = before ++ x :: y :: after ∧
      sortByKey key (y :: x :: l) = before ++ y :: x :: after := by
  have hinsert : ∀ {first second : α}, key first = key second →
      sortByKey key (first :: second :: l) =
        (sortByKey key l).takeWhile (fun z => ¬ key first ≤ key z) ++ first :: second ::
          (sortByKey key l).dropWhile (fun z => ¬ key first ≤ key z) := by
    intro first second hfirst
    have hcons : ∀ z l', sortByKey key (z :: l') =
        (sortByKey key l').orderedInsert (fun a b => key a ≤ key b) z := fun _ _ => rfl
    have hbelow : ∀ z ∈ (sortByKey key l).takeWhile (fun z => ¬ key first ≤ key z),
        ¬ key first ≤ key z := by
      intro z hz
      have hpasses := List.mem_takeWhile_imp hz
      exact of_decide_eq_true hpasses
    rw [hcons, hcons, List.orderedInsert_eq_take_drop _ second, ← hfirst,
      List.orderedInsert_eq_take_drop]
    rw [List.takeWhile_append_of_pos fun z hz => decide_eq_true (hbelow z hz),
      List.dropWhile_append_of_pos fun z hz => decide_eq_true (hbelow z hz)]
    have hstop : decide (¬ key first ≤ key second) = false := by simp [hfirst]
    rw [List.takeWhile_cons_of_neg (by simp [hfirst]), List.dropWhile_cons_of_neg (by simp [hfirst]),
      List.append_nil]
  refine ⟨_, _, hinsert hkey, ?_⟩
  rw [hinsert hkey.symm, hkey]

/-- The order of a list never matters to what its sort shows exactly if equal keys show the same. -/
theorem map_sortByKey_perm_iff {β : Type*} {shown : α → β} :
    (∀ l', l.Perm l' → (sortByKey key l').map shown = (sortByKey key l).map shown) ↔
      ∀ x ∈ l, ∀ y ∈ l, key x = key y → shown x = shown y := by
  refine ⟨?_, fun hties l' h => map_sortByKey_eq_of_perm h hties⟩
  intro hperm x hx y hy hkey
  by_cases heq : x = y
  · rw [heq]
  obtain ⟨first, second, rfl⟩ := List.append_of_mem hx
  have hmiddle : (first ++ x :: second).Perm (x :: (first ++ second)) := List.perm_middle
  have hy : y ∈ first ++ second := by
    rcases List.mem_cons.mp (hmiddle.mem_iff.mp hy) with rfl | hy
    · exact absurd rfl heq
    · exact hy
  obtain ⟨first', second', hsplit⟩ := List.append_of_mem hy
  have hfront : (first ++ x :: second).Perm (x :: y :: (first' ++ second')) := by
    refine hmiddle.trans (List.Perm.cons x ?_)
    rw [hsplit]
    exact List.perm_middle
  obtain ⟨before, after, hxy, hyx⟩ := sortByKey_cons_cons hkey (first' ++ second')
  have hboth := (hperm _ hfront).trans (hperm _ (hfront.trans (List.Perm.swap y x _))).symm
  rw [hxy, hyx, List.map_append, List.map_append, List.append_cancel_left_eq] at hboth
  exact (List.cons.inj hboth).1

end ByKey

/-- A list in which no element that passes a test follows one that fails it. -/
theorem filter_append_filter_of_pairwise {p : α → Bool} {l : List α}
    (h : l.Pairwise fun a b => p b = true → p a = true) :
    l.filter p ++ l.filter (fun x => !p x) = l := by
  induction l with
  | nil => rfl
  | cons x l ih =>
      obtain ⟨hx, hl⟩ := List.pairwise_cons.mp h
      by_cases hp : p x = true
      · simp [hp, ih hl]
      · have hnone : ∀ y ∈ l, ¬ p y = true := fun y hy hpy => hp (hx y hy hpy)
        have hall : l.filter (fun x => !p x) = l :=
          List.filter_eq_self.mpr fun y hy => by simp [hnone y hy]
        simp [hp, hall, List.filter_eq_nil_iff.mpr hnone]

/-- A list in ascending order of groups is its groups one after another. -/
theorem eq_flatMap_groups {group : α → Nat} {n : Nat} {l : List α}
    (hsorted : l.Pairwise fun a b => group a ≤ group b) (hbound : ∀ x ∈ l, group x < n) :
    l = (List.range n).flatMap fun i => l.filter fun x => group x = i := by
  induction n generalizing l with
  | zero => simp [List.eq_nil_iff_forall_not_mem.mpr fun x hx => Nat.not_lt_zero _ (hbound x hx)]
  | succ n ih =>
      have hsplit := filter_append_filter_of_pairwise (p := fun x => decide (group x < n))
        (hsorted.imp fun {a b} hle => by simpa using fun hb => lt_of_le_of_lt hle hb)
      have hlast : l.filter (fun x => !decide (group x < n)) = l.filter fun x => group x = n :=
        List.filter_congr fun x hx => by
          have := hbound x hx
          simp only [← decide_not, decide_eq_decide]
          omega
      have hbelow := ih (hsorted.filter fun x => decide (group x < n))
        fun x hx => by simpa using (List.mem_filter.mp hx).2
      rw [List.range_succ, List.flatMap_append, List.flatMap_singleton, ← hlast]
      conv_lhs => rw [← hsplit, hbelow]
      refine congrArg (· ++ _) (List.flatMap_congr fun i hi => ?_)
      rw [List.filter_filter]
      refine List.filter_congr fun x _ => ?_
      have hi := List.mem_range.mp hi
      rw [Bool.and_eq_left_iff_imp]
      intro hgroup
      simp only [decide_eq_true_eq] at hgroup ⊢
      omega

end Chronicle.Library.StableSort
