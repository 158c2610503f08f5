import Chronicle.Library.Ties
import Mathlib.Data.List.ProdSigma

/-!
# Neighbours in some reordering

Which two elements can stand beside an element of a sorted list when tied elements are reordered:
elements tied with it, and where it comes first or last of them, any element of the group next to
its own.
-/

namespace Chronicle.Library.Ties

variable {α κ : Type*} [LinearOrder κ]

/-- The elements of the group, or nothing if there are none. -/
def choices (group : List α) : List (Option α) := if group.isEmpty then [none] else group.map some

section

variable (key : α → κ) (l : List α)

/-- The group that comes before a key. -/
def groupBefore (k : κ) : List α :=
  match (l.filter fun x => key x < k).getLast? with
  | none => []
  | some x => l.filter fun y => key y = key x

/-- The group that comes after a key. -/
def groupAfter (k : κ) : List α :=
  match (l.filter fun x => k < key x).head? with
  | none => []
  | some x => l.filter fun y => key y = key x

variable [DecidableEq α]

/-- The other elements with the key of an element. -/
def others (x : α) : List α := (l.filter fun y => key y = key x).erase x

/-- What can stand before and after an element. -/
def neighbours (x : α) : List (Option α × Option α) :=
  let before := choices (groupBefore key l (key x))
  let after := choices (groupAfter key l (key x))
  let tied := others key l x
  if tied.isEmpty then before ×ˢ after
  else before ×ˢ tied.map some ++ tied.map some ×ˢ after ++
    ((tied ×ˢ tied).filter fun pair => pair.1 ≠ pair.2).map fun pair => (some pair.1, some pair.2)

end

variable {key : α → κ} {l l' first last : List α} {x : α}

theorem mem_choices {group : List α} {choice : Option α} :
    choice ∈ choices group ↔ (group = [] ∧ choice = none) ∨ ∃ a ∈ group, choice = some a := by
  unfold choices
  cases group with
  | nil => simp
  | cons a group => simp [eq_comm]

/-! ## What stands beside an element can stand beside it -/

theorem sorted_append_cons (hsorted : (first ++ x :: last).Pairwise fun a b => key a ≤ key b) :
    (∀ a ∈ first, key a ≤ key x) ∧ (∀ b ∈ last, key x ≤ key b) ∧
      first.Pairwise (fun a b => key a ≤ key b) ∧ last.Pairwise fun a b => key a ≤ key b := by
  obtain ⟨hfirst, hrest, hcross⟩ := List.pairwise_append.mp hsorted
  obtain ⟨hx, hlast⟩ := List.pairwise_cons.mp hrest
  exact ⟨fun a ha => hcross a ha x List.mem_cons_self, hx, hfirst, hlast⟩

/-- Before an element stands a tied one, or one of the group before. -/
theorem before_cases (hsorted : (first ++ x :: last).Pairwise fun a b => key a ≤ key b) :
    (∃ a ∈ first, first.getLast? = some a ∧ key a = key x) ∨
      (first.getLast? ∈ choices (groupBefore key (first ++ x :: last) (key x)) ∧
        ∀ a ∈ first, key a < key x) := by
  obtain ⟨hfirst, hlast, hsortedFirst, -⟩ := sorted_append_cons hsorted
  rcases List.eq_nil_or_concat first with rfl | ⟨init, a, rfl⟩
  · right
    have hnone : ([] ++ x :: last).filter (fun y => key y < key x) = [] := by
      refine List.filter_eq_nil_iff.mpr fun y hy => ?_
      rcases List.mem_cons.mp hy with rfl | hy
      · simp
      · simpa using hlast y hy
    refine ⟨?_, fun a ha => absurd ha List.not_mem_nil⟩
    rw [groupBefore, hnone]
    exact mem_choices.mpr (.inl ⟨rfl, rfl⟩)
  · rw [List.concat_eq_append] at *
    have hgetLast : (init ++ [a]).getLast? = some a := by simp
    rcases (hfirst a (by simp)).lt_or_eq with hlt | heq
    · right
      have hbelow : ∀ b ∈ init ++ [a], key b < key x := by
        intro b hb
        rcases List.mem_append.mp hb with hb | hb
        · exact lt_of_le_of_lt ((List.pairwise_append.mp hsortedFirst).2.2 b hb a (by simp)) hlt
        · rwa [List.mem_singleton.mp hb]
      have hall : (init ++ [a]).filter (fun y => key y < key x) = init ++ [a] :=
        List.filter_eq_self.mpr fun b hb => decide_eq_true (hbelow b hb)
      have hrest : (x :: last).filter (fun y => key y < key x) = [] := by
        refine List.filter_eq_nil_iff.mpr fun y hy => ?_
        rcases List.mem_cons.mp hy with rfl | hy
        · simp
        · simpa using hlast y hy
      refine ⟨?_, hbelow⟩
      rw [groupBefore, List.filter_append, hall, hrest, List.append_nil, hgetLast]
      exact mem_choices.mpr (.inr ⟨a, List.mem_filter.mpr ⟨by simp, by simp⟩, rfl⟩)
    · exact .inl ⟨a, by simp, hgetLast, heq⟩

/-- After an element stands a tied one, or one of the group after. -/
theorem after_cases (hsorted : (first ++ x :: last).Pairwise fun a b => key a ≤ key b) :
    (∃ b ∈ last, last.head? = some b ∧ key b = key x) ∨
      (last.head? ∈ choices (groupAfter key (first ++ x :: last) (key x)) ∧
        ∀ b ∈ last, key x < key b) := by
  obtain ⟨hfirst, hlast, -, hsortedLast⟩ := sorted_append_cons hsorted
  have hnone : first.filter (fun y => key x < key y) = [] :=
    List.filter_eq_nil_iff.mpr fun y hy => by simpa using hfirst y hy
  have hself : ∀ rest : List α, (x :: rest).filter (fun y => key x < key y) =
      rest.filter fun y => key x < key y := fun rest => List.filter_cons_of_neg (by simp)
  cases last with
  | nil =>
      right
      refine ⟨?_, fun b hb => absurd hb List.not_mem_nil⟩
      rw [groupAfter, List.filter_append, hnone, hself]
      exact mem_choices.mpr (.inl ⟨rfl, rfl⟩)
  | cons b rest =>
      rcases (hlast b List.mem_cons_self).lt_or_eq with hlt | heq
      · right
        have habove : ∀ c ∈ b :: rest, key x < key c := by
          intro c hc
          rcases List.mem_cons.mp hc with rfl | hc
          · exact hlt
          · exact lt_of_lt_of_le hlt ((List.pairwise_cons.mp hsortedLast).1 c hc)
        refine ⟨?_, habove⟩
        rw [groupAfter, List.filter_append, hnone, hself, List.nil_append,
          List.filter_cons_of_pos (by simpa using hlt), List.head?_cons, List.head?_cons]
        exact mem_choices.mpr (.inr ⟨b, List.mem_filter.mpr ⟨by simp, by simp⟩, rfl⟩)
      · exact .inl ⟨b, List.mem_cons_self, rfl, heq.symm⟩

section Beside

variable [DecidableEq α]

theorem mem_others (hnodup : l.Nodup) {y : α} :
    y ∈ others key l x ↔ y ≠ x ∧ y ∈ l ∧ key y = key x := by
  rw [others, (hnodup.filter _).mem_erase_iff, List.mem_filter, decide_eq_true_eq]

theorem mem_neighbours_iff {pair : Option α × Option α} :
    pair ∈ neighbours key l x ↔
      (others key l x = [] ∧ pair.1 ∈ choices (groupBefore key l (key x)) ∧
        pair.2 ∈ choices (groupAfter key l (key x))) ∨
      (pair.1 ∈ choices (groupBefore key l (key x)) ∧ ∃ y ∈ others key l x, pair.2 = some y) ∨
      (pair.2 ∈ choices (groupAfter key l (key x)) ∧ ∃ y ∈ others key l x, pair.1 = some y) ∨
      ∃ y ∈ others key l x, ∃ z ∈ others key l x, y ≠ z ∧ pair = (some y, some z) := by
  obtain ⟨previous, next⟩ := pair
  unfold neighbours
  by_cases hnone : others key l x = []
  · simp [hnone]
  · rw [if_neg (by simpa using hnone)]
    simp only [List.mem_append, List.mem_product, List.mem_map, List.mem_filter, hnone, false_and,
      false_or, Prod.mk.injEq, Prod.exists, decide_eq_true_eq, or_assoc]
    refine or_congr ?_ (or_congr ?_ ?_)
    · simp only [eq_comm]
    · rw [and_comm]
      simp only [eq_comm]
    · constructor
      · rintro ⟨y, z, ⟨⟨hy, hz⟩, hne⟩, rfl, rfl⟩
        exact ⟨y, hy, z, hz, hne, rfl, rfl⟩
      · rintro ⟨y, hy, z, hz, hne, rfl, rfl⟩
        exact ⟨y, z, ⟨⟨hy, hz⟩, hne⟩, rfl, rfl⟩

/-- What stands beside an element is among what can. -/
theorem mem_neighbours (hsorted : (first ++ x :: last).Pairwise fun a b => key a ≤ key b)
    (hnodup : (first ++ x :: last).Nodup) :
    (first.getLast?, last.head?) ∈ neighbours key (first ++ x :: last) x := by
  obtain ⟨-, hrest, hcross⟩ := List.nodup_append.mp hnodup
  have hxFirst : x ∉ first := fun h => hcross x h x List.mem_cons_self rfl
  have hxLast : x ∉ last := (List.nodup_cons.mp hrest).1
  have htied : ∀ y, y ∈ first ∨ y ∈ last → key y = key x →
      y ∈ others key (first ++ x :: last) x := by
    intro y hy hkey
    refine (mem_others hnodup).mpr ⟨?_, by simpa using hy.imp id .inr, hkey⟩
    rintro rfl
    exact hy.elim hxFirst hxLast
  refine mem_neighbours_iff.mpr ?_
  rcases before_cases hsorted with ⟨a, ha, hlastEq, haKey⟩ | ⟨hbefore, hbelow⟩ <;>
    rcases after_cases hsorted with ⟨b, hb, hheadEq, hbKey⟩ | ⟨hafter, habove⟩
  · have hne : a ≠ b := fun h => hcross a ha b (List.mem_cons_of_mem x hb) h
    refine .inr (.inr (.inr ⟨a, htied a (.inl ha) haKey, b, htied b (.inr hb) hbKey, hne, ?_⟩))
    rw [hlastEq, hheadEq]
  · exact .inr (.inr (.inl ⟨hafter, a, htied a (.inl ha) haKey, hlastEq⟩))
  · exact .inr (.inl ⟨hbefore, b, htied b (.inr hb) hbKey, hheadEq⟩)
  · refine .inl ⟨List.eq_nil_iff_forall_not_mem.mpr fun y hy => ?_, hbefore, hafter⟩
    obtain ⟨hne, hmem, hkey⟩ := (mem_others hnodup).mp hy
    rcases List.mem_append.mp hmem with hmem | hmem
    · exact absurd hkey (hbelow y hmem).ne
    · rcases List.mem_cons.mp hmem with rfl | hmem
      · exact hne rfl
      · exact absurd hkey (habove y hmem).ne'

/-! ## What can stand beside an element is the same for every reordering -/

omit [DecidableEq α] in
theorem Reordering.groupBefore (h : Reordering key l l')
    (hsorted : l.Pairwise fun a b => key a ≤ key b) (k : κ) :
    (groupBefore key l' k).Perm (groupBefore key l k) := by
  have hkeys := congrArg List.getLast? (h.filter hsorted fun x => key x < k).2
  rw [List.getLast?_map, List.getLast?_map] at hkeys
  unfold Ties.groupBefore
  cases hlast : (l.filter fun x => key x < k).getLast? with
  | none =>
      cases hlast' : (l'.filter fun x => key x < k).getLast? with
      | none => exact .refl _
      | some first => rw [hlast, hlast'] at hkeys; exact nomatch hkeys
  | some first =>
      cases hlast' : (l'.filter fun x => key x < k).getLast? with
      | none => rw [hlast, hlast'] at hkeys; exact nomatch hkeys
      | some first' =>
          rw [hlast, hlast', Option.map_some, Option.map_some, Option.some.injEq] at hkeys
          simp only [hkeys]
          exact h.1.filter _

omit [DecidableEq α] in
theorem Reordering.groupAfter (h : Reordering key l l')
    (hsorted : l.Pairwise fun a b => key a ≤ key b) (k : κ) :
    (groupAfter key l' k).Perm (groupAfter key l k) := by
  have hkeys := congrArg List.head? (h.filter hsorted fun x => k < key x).2
  rw [List.head?_map, List.head?_map] at hkeys
  unfold Ties.groupAfter
  cases hhead : (l.filter fun x => k < key x).head? with
  | none =>
      cases hhead' : (l'.filter fun x => k < key x).head? with
      | none => exact .refl _
      | some first => rw [hhead, hhead'] at hkeys; exact nomatch hkeys
  | some first =>
      cases hhead' : (l'.filter fun x => k < key x).head? with
      | none => rw [hhead, hhead'] at hkeys; exact nomatch hkeys
      | some first' =>
          rw [hhead, hhead', Option.map_some, Option.map_some, Option.some.injEq] at hkeys
          simp only [hkeys]
          exact h.1.filter _

omit [LinearOrder κ] [DecidableEq α] in
theorem mem_choices_of_perm {group group' : List α} (h : group'.Perm group) {choice : Option α} :
    choice ∈ choices group' ↔ choice ∈ choices group := by
  have hnil : group' = [] ↔ group = [] :=
    ⟨fun hnil => (hnil ▸ h).symm.eq_nil, fun hnil => (hnil ▸ h).eq_nil⟩
  simp only [mem_choices, h.mem_iff, hnil]

theorem Reordering.mem_neighbours_iff (h : Reordering key l l')
    (hsorted : l.Pairwise fun a b => key a ≤ key b) {pair : Option α × Option α} :
    pair ∈ neighbours key l' x ↔ pair ∈ neighbours key l x := by
  have hothers : (others key l' x).Perm (others key l x) := (h.1.filter _).erase x
  have hnil : others key l' x = [] ↔ others key l x = [] :=
    ⟨fun hnil => (hnil ▸ hothers).symm.eq_nil, fun hnil => (hnil ▸ hothers).eq_nil⟩
  rw [Ties.mem_neighbours_iff, Ties.mem_neighbours_iff]
  simp only [hothers.mem_iff, hnil, mem_choices_of_perm (h.groupBefore hsorted _),
    mem_choices_of_perm (h.groupAfter hsorted _)]

/-! ## What can stand beside an element does so in some reordering -/

theorem exists_before {k : κ} {choice : Option α} (hsorted : l.Pairwise fun a b => key a ≤ key b)
    (h : choice ∈ choices (groupBefore key l k)) :
    ∃ below : List α, below.Perm (l.filter fun x => key x < k) ∧
      below.Pairwise (fun a b => key a ≤ key b) ∧ below.getLast? = choice := by
  unfold groupBefore at h
  cases hlast : (l.filter fun x => key x < k).getLast? with
  | none =>
      rw [hlast] at h
      have hnil := List.getLast?_eq_none_iff.mp hlast
      obtain ⟨-, rfl⟩ := (mem_choices.mp h).resolve_right (by simp)
      exact ⟨[], by rw [hnil], .nil, rfl⟩
  | some m =>
      rw [hlast] at h
      have hm := List.mem_of_getLast? hlast
      rcases mem_choices.mp h with ⟨hnil, -⟩ | ⟨a, ha, rfl⟩
      · exact absurd (List.mem_filter.mpr ⟨(List.mem_filter.mp hm).1, by simp⟩)
          (List.eq_nil_iff_forall_not_mem.mp hnil m)
      · obtain ⟨haMem, haKey⟩ := List.mem_filter.mp ha
        rw [decide_eq_true_eq] at haKey
        have haBelow : a ∈ l.filter fun x => key x < k :=
          List.mem_filter.mpr ⟨haMem, by simpa [haKey] using (List.mem_filter.mp hm).2⟩
        refine ⟨(l.filter fun x => key x < k).erase a ++ [a], ?_, ?_, by simp⟩
        · exact (List.perm_append_singleton _ _).trans (List.perm_cons_erase haBelow).symm
        · have hbelow := hsorted.filter fun x => key x < k
          refine List.pairwise_append.mpr ⟨hbelow.sublist List.erase_sublist,
            List.pairwise_singleton _ _, fun b hb c hc => ?_⟩
          rw [List.mem_singleton.mp hc, haKey]
          obtain ⟨init, hinit⟩ := List.getLast?_eq_some_iff.mp hlast
          have hb := List.mem_of_mem_erase hb
          rw [hinit] at hb hbelow
          rcases List.mem_append.mp hb with hb | hb
          · exact (List.pairwise_append.mp hbelow).2.2 b hb m (by simp)
          · rw [List.mem_singleton.mp hb]

theorem exists_after {k : κ} {choice : Option α} (hsorted : l.Pairwise fun a b => key a ≤ key b)
    (h : choice ∈ choices (groupAfter key l k)) :
    ∃ above : List α, above.Perm (l.filter fun x => k < key x) ∧
      above.Pairwise (fun a b => key a ≤ key b) ∧ above.head? = choice := by
  unfold groupAfter at h
  cases hhead : (l.filter fun x => k < key x).head? with
  | none =>
      rw [hhead] at h
      have hnil := List.head?_eq_none_iff.mp hhead
      obtain ⟨-, rfl⟩ := (mem_choices.mp h).resolve_right (by simp)
      exact ⟨[], by rw [hnil], .nil, rfl⟩
  | some m =>
      rw [hhead] at h
      have hm := List.mem_of_head? hhead
      rcases mem_choices.mp h with ⟨hnil, -⟩ | ⟨a, ha, rfl⟩
      · exact absurd (List.mem_filter.mpr ⟨(List.mem_filter.mp hm).1, by simp⟩)
          (List.eq_nil_iff_forall_not_mem.mp hnil m)
      · obtain ⟨haMem, haKey⟩ := List.mem_filter.mp ha
        rw [decide_eq_true_eq] at haKey
        have haAbove : a ∈ l.filter fun x => k < key x :=
          List.mem_filter.mpr ⟨haMem, by simpa [haKey] using (List.mem_filter.mp hm).2⟩
        refine ⟨a :: (l.filter fun x => k < key x).erase a,
          (List.perm_cons_erase haAbove).symm, ?_, rfl⟩
        have habove := hsorted.filter fun x => k < key x
        refine List.pairwise_cons.mpr ⟨fun b hb => ?_, habove.sublist List.erase_sublist⟩
        rw [haKey]
        obtain ⟨rest, hrest⟩ := List.head?_eq_some_iff.mp hhead
        have hb := List.mem_of_mem_erase hb
        rw [hrest] at hb habove
        rcases List.mem_cons.mp hb with rfl | hb
        · exact le_rfl
        · exact (List.pairwise_cons.mp habove).1 b hb

omit [DecidableEq α] in
/-- A sorted list put together again of what is below a key, tied at it, and above it. -/
theorem reordering_of_parts {k : κ} {below tied above : List α}
    (hsorted : l.Pairwise fun a b => key a ≤ key b)
    (hbelow : below.Perm (l.filter fun x => key x < k))
    (htied : tied.Perm (l.filter fun x => key x = k))
    (habove : above.Perm (l.filter fun x => k < key x))
    (hbelowSorted : below.Pairwise fun a b => key a ≤ key b)
    (haboveSorted : above.Pairwise fun a b => key a ≤ key b) :
    Reordering key l (below ++ tied ++ above) := by
  have hbelowKey : ∀ a ∈ below, key a < k := fun a ha => by
    simpa using (List.mem_filter.mp (hbelow.mem_iff.mp ha)).2
  have htiedKey : ∀ a ∈ tied, key a = k := fun a ha => by
    simpa using (List.mem_filter.mp (htied.mem_iff.mp ha)).2
  have haboveKey : ∀ a ∈ above, k < key a := fun a ha => by
    simpa using (List.mem_filter.mp (habove.mem_iff.mp ha)).2
  refine reordering_of_pairwise ?_ hsorted ?_
  · refine ((hbelow.append htied).append habove).trans ?_
    have hsplit := List.filter_append_perm (fun x => key x < k) l
    have hsplit' := List.filter_append_perm (fun x => key x = k)
      (l.filter fun x => !decide (key x < k))
    rw [List.filter_filter, List.filter_filter] at hsplit'
    -- below, tied and above: every element is in exactly one part
    have heq : (l.filter fun x => decide (key x = k) && !decide (key x < k)) =
        l.filter fun x => key x = k := by
      refine List.filter_congr fun x _ => ?_
      by_cases hx : key x = k <;> simp [hx]
    have hgt : (l.filter fun x => !decide (key x = k) && !decide (key x < k)) =
        l.filter fun x => k < key x := by
      refine List.filter_congr fun x _ => ?_
      rcases lt_trichotomy (key x) k with hx | hx | hx
      · simp [hx, hx.le]
      · simp [hx]
      · simp [hx, hx.ne', hx.le]
    rw [heq, hgt] at hsplit'
    rw [List.append_assoc]
    exact (hsplit'.append_left _).trans hsplit
  · refine List.pairwise_append.mpr ⟨List.pairwise_append.mpr ⟨hbelowSorted, ?_, ?_⟩,
      haboveSorted, ?_⟩
    · exact List.pairwise_of_forall_mem_list fun a ha b hb => by rw [htiedKey a ha, htiedKey b hb]
    · exact fun a ha b hb => by rw [htiedKey b hb]; exact (hbelowKey a ha).le
    · intro a ha b hb
      rcases List.mem_append.mp ha with ha | ha
      · exact ((hbelowKey a ha).trans (haboveKey b hb)).le
      · rw [htiedKey a ha]
        exact (haboveKey b hb).le

theorem exists_reordering_of_mem_neighbours (hsorted : l.Pairwise fun a b => key a ≤ key b)
    (hx : x ∈ l) {pair : Option α × Option α} (h : pair ∈ neighbours key l x) :
    ∃ first last, Reordering key l (first ++ x :: last) ∧ first.getLast? = pair.1 ∧
      last.head? = pair.2 := by
  have htied : (x :: others key l x).Perm (l.filter fun y => key y = key x) :=
    (List.perm_cons_erase (List.mem_filter.mpr ⟨hx, by simp⟩)).symm
  -- the tied elements may be put on either side of `x` in any way
  have hbuild : ∀ {below before after above : List α},
      below.Perm (l.filter fun y => key y < key x) → below.Pairwise (fun a b => key a ≤ key b) →
      above.Perm (l.filter fun y => key x < key y) → above.Pairwise (fun a b => key a ≤ key b) →
      (before ++ after).Perm (others key l x) →
      Reordering key l ((below ++ before) ++ x :: (after ++ above)) := by
    intro below before after above hbelow hbelowSorted habove haboveSorted hothers
    have hparts := reordering_of_parts hsorted hbelow
      (List.perm_middle.trans ((hothers.cons x).trans htied)) habove hbelowSorted haboveSorted
    simpa using hparts
  have hself : ∀ {p : α → Bool}, (l.filter p).Pairwise fun a b => key a ≤ key b :=
    hsorted.filter _
  rcases mem_neighbours_iff.mp h with ⟨hnone, hbefore, hafter⟩ | ⟨hbefore, y, hy, hnext⟩ |
    ⟨hafter, y, hy, hprevious⟩ | ⟨y, hy, z, hz, hne, rfl⟩
  · -- no other element is tied with `x`
    obtain ⟨below, hbelow, hbelowSorted, hlast⟩ := exists_before hsorted hbefore
    obtain ⟨above, habove, haboveSorted, hhead⟩ := exists_after hsorted hafter
    refine ⟨below ++ [], [] ++ above, hbuild hbelow hbelowSorted habove haboveSorted ?_, ?_, hhead⟩
    · rw [hnone, List.append_nil]
    · rwa [List.append_nil]
  · -- the next one is tied, the one before is not
    obtain ⟨below, hbelow, hbelowSorted, hlast⟩ := exists_before hsorted hbefore
    refine ⟨below ++ [], (y :: (others key l x).erase y) ++ _,
      hbuild hbelow hbelowSorted (List.Perm.refl _) hself ?_, ?_, hnext.symm⟩
    · exact (List.perm_cons_erase hy).symm
    · rwa [List.append_nil]
  · -- the one before is tied, the next one is not
    obtain ⟨above, habove, haboveSorted, hhead⟩ := exists_after hsorted hafter
    refine ⟨_ ++ ((others key l x).erase y ++ [y]), [] ++ above,
      hbuild (List.Perm.refl _) hself habove haboveSorted ?_, ?_, hhead⟩
    · rw [List.append_nil]
      exact (List.perm_append_singleton y _).trans (List.perm_cons_erase hy).symm
    · rw [← List.append_assoc, List.getLast?_concat, hprevious]
  · -- both neighbours are tied with `x`
    refine ⟨_ ++ [y], (z :: ((others key l x).erase y).erase z) ++ _,
      hbuild (List.Perm.refl _) hself (List.Perm.refl _) hself ?_, ?_, rfl⟩
    · have hzErase : z ∈ (others key l x).erase y := (List.mem_erase_of_ne hne.symm).mpr hz
      exact ((List.perm_cons_erase hzErase).symm.cons y).trans (List.perm_cons_erase hy).symm
    · rw [List.getLast?_concat]

end Beside

end Chronicle.Library.Ties
