import Mathlib.Algebra.BigOperators.Group.Multiset.Basic
import Mathlib.Data.Multiset.Bind
import Mathlib.Data.Multiset.Dedup
import Mathlib.Logic.Function.Basic

/-!
# Charges for parts that holders share

A holder is charged for what it owns and for its parts. A part that several holders have is charged
once, with an overhead for its place in the table of counts. The table counts every occurrence, so
that the last holder to leave gives the charge back.
-/

namespace Chronicle.Library.SharedCharges

variable {K : Type*} [DecidableEq K]

/-- The occurrences of each part and its bytes. -/
abbrev Counts (K : Type*) := K → Option (ℕ × ℕ)

/-- What a holder owns, and the parts it may share, each with its bytes. -/
structure Holding (K : Type*) where
  own : ℕ
  parts : List (K × ℕ) := []

/-- One more occurrence of a part, and what is charged for it. -/
def addPart (overhead : ℕ) (counts : Counts K) (part : K × ℕ) : Counts K × ℕ :=
  match counts part.1 with
  | some (references, bytes) => (Function.update counts part.1 (some (references + 1, bytes)), 0)
  | none => (Function.update counts part.1 (some (1, part.2)), part.2 + overhead)

/-- One occurrence of a part less, and what is given back; nothing if it is not counted. -/
def removePart (overhead : ℕ) (counts : Counts K) (part : K × ℕ) : Option (Counts K × ℕ) :=
  match counts part.1 with
  | none => none
  | some (references, bytes) =>
      if references - 1 = 0 then
        some (Function.update counts part.1 none, part.2 + overhead)
      else some (Function.update counts part.1 (some (references - 1, bytes)), 0)

def addParts (overhead : ℕ) (counts : Counts K) : List (K × ℕ) → Counts K × ℕ
  | [] => (counts, 0)
  | part :: parts =>
      let added := addPart overhead counts part
      let rest := addParts overhead added.1 parts
      (rest.1, added.2 + rest.2)

def removeParts (overhead : ℕ) (counts : Counts K) : List (K × ℕ) → Option (Counts K × ℕ)
  | [] => some (counts, 0)
  | part :: parts => do
      let removed ← removePart overhead counts part
      let rest ← removeParts overhead removed.1 parts
      return (rest.1, removed.2 + rest.2)

/-- Occurrences of one part have the same bytes. -/
def Consistent (parts : Multiset (K × ℕ)) : Prop :=
  ∀ x ∈ parts, ∀ y ∈ parts, x.1 = y.1 → x = y

/-- The table counts the occurrences of the parts. -/
def Accounts (counts : Counts K) (parts : Multiset (K × ℕ)) : Prop :=
  ∀ key, (key ∉ parts.map Prod.fst ∧ counts key = none) ∨
    ∃ bytes, (key, bytes) ∈ parts ∧ counts key = some ((parts.map Prod.fst).count key, bytes)

/-- Each part is charged once. -/
def partCharge (overhead : ℕ) (parts : Multiset (K × ℕ)) : ℕ :=
  (parts.dedup.map fun part => part.2 + overhead).sum

variable {overhead : ℕ} {counts : Counts K} {part : K × ℕ} {parts : Multiset (K × ℕ)}

omit [DecidableEq K] in
theorem Consistent.mono {fewer : Multiset (K × ℕ)} (h : Consistent parts)
    (hsub : ∀ x ∈ fewer, x ∈ parts) : Consistent fewer :=
  fun x hx y hy => h x (hsub x hx) y (hsub y hy)

theorem accounts_zero : Accounts (fun _ => none) (0 : Multiset (K × ℕ)) :=
  fun _ => .inl ⟨by simp, rfl⟩

@[simp]
theorem partCharge_zero : partCharge overhead (0 : Multiset (K × ℕ)) = 0 := rfl

theorem partCharge_cons_of_mem (h : part ∈ parts) :
    partCharge overhead (part ::ₘ parts) = partCharge overhead parts := by
  rw [partCharge, Multiset.dedup_cons_of_mem h, partCharge]

theorem partCharge_cons_of_notMem (h : part ∉ parts) :
    partCharge overhead (part ::ₘ parts) = part.2 + overhead + partCharge overhead parts := by
  rw [partCharge, Multiset.dedup_cons_of_notMem h, Multiset.map_cons, Multiset.sum_cons, partCharge]

variable (overhead) in
/-- Counting one more occurrence. -/
theorem Accounts.addPart (h : Accounts counts parts) (hparts : Consistent (part ::ₘ parts)) :
    Accounts (addPart overhead counts part).1 (part ::ₘ parts) ∧
      partCharge overhead (part ::ₘ parts) =
        partCharge overhead parts + (addPart overhead counts part).2 := by
  obtain ⟨key, bytes⟩ := part
  unfold SharedCharges.addPart
  rcases h key with ⟨hnot, hnone⟩ | ⟨held, hmem, hsome⟩
  · have hpart : (key, bytes) ∉ parts := fun hin => hnot (Multiset.mem_map.mpr ⟨_, hin, rfl⟩)
    simp only [hnone]
    refine ⟨fun other => ?_, by rw [partCharge_cons_of_notMem hpart]; omega⟩
    by_cases hother : other = key
    · subst hother
      refine .inr ⟨bytes, Multiset.mem_cons_self _ _, ?_⟩
      rw [Function.update_self, Multiset.map_cons, Multiset.count_cons_self,
        Multiset.count_eq_zero.mpr hnot]
    · rw [Function.update_of_ne hother, Multiset.map_cons, Multiset.count_cons_of_ne hother]
      rcases h other with ⟨hout, hzero⟩ | ⟨held, hin, hcount⟩
      · exact .inl ⟨by simpa [hother] using hout, hzero⟩
      · exact .inr ⟨held, Multiset.mem_cons_of_mem hin, hcount⟩
  · obtain rfl : held = bytes := congrArg Prod.snd
      (hparts (key, held) (Multiset.mem_cons_of_mem hmem) (key, bytes)
        (Multiset.mem_cons_self _ _) rfl)
    simp only [hsome]
    refine ⟨fun other => ?_, by rw [partCharge_cons_of_mem hmem]; omega⟩
    by_cases hother : other = key
    · subst hother
      refine .inr ⟨held, Multiset.mem_cons_self _ _, ?_⟩
      rw [Function.update_self, Multiset.map_cons, Multiset.count_cons_self]
    · rw [Function.update_of_ne hother, Multiset.map_cons, Multiset.count_cons_of_ne hother]
      rcases h other with ⟨hout, hzero⟩ | ⟨held, hin, hcount⟩
      · exact .inl ⟨by simpa [hother] using hout, hzero⟩
      · exact .inr ⟨held, Multiset.mem_cons_of_mem hin, hcount⟩

variable (overhead) in
/-- A held part can be given back. -/
theorem Accounts.removePart (h : Accounts counts (part ::ₘ parts))
    (hparts : Consistent (part ::ₘ parts)) :
    ∃ removed, removePart overhead counts part = some removed ∧ Accounts removed.1 parts ∧
      partCharge overhead (part ::ₘ parts) = partCharge overhead parts + removed.2 := by
  obtain ⟨key, bytes⟩ := part
  -- the other keys keep their counts
  have hothers : ∀ counted, ∀ other, other ≠ key →
      (other ∉ parts.map Prod.fst ∧ Function.update counts key counted other = none) ∨
      ∃ held, (other, held) ∈ parts ∧ Function.update counts key counted other =
        some ((parts.map Prod.fst).count other, held) := by
    intro counted other hother
    rw [Function.update_of_ne hother]
    rcases h other with ⟨hout, hzero⟩ | ⟨held, hin, hcount⟩
    · exact .inl ⟨fun hin => hout (by simp [Multiset.map_cons, hin]), hzero⟩
    · refine .inr ⟨held, ?_, by simpa [Multiset.map_cons, Multiset.count_cons_of_ne hother] using hcount⟩
      rcases Multiset.mem_cons.mp hin with heq | hin
      · exact absurd (congrArg Prod.fst heq) hother
      · exact hin
  rcases h key with ⟨hnot, -⟩ | ⟨held, hmem, hsome⟩
  · exact absurd (by simp) hnot
  obtain rfl : held = bytes :=
    congrArg Prod.snd (hparts (key, held) hmem (key, bytes) (Multiset.mem_cons_self _ _) rfl)
  rw [Multiset.map_cons, Multiset.count_cons_self] at hsome
  simp only [SharedCharges.removePart, hsome, Nat.add_sub_cancel]
  split
  · -- this was the last part of its key
    rename_i hzero
    have hnot : key ∉ parts.map Prod.fst := Multiset.count_eq_zero.mp hzero
    have hpart : (key, held) ∉ parts := fun hin => hnot (Multiset.mem_map.mpr ⟨_, hin, rfl⟩)
    refine ⟨_, rfl, fun other => ?_, by rw [partCharge_cons_of_notMem hpart]; omega⟩
    by_cases hother : other = key
    · subst hother
      exact .inl ⟨hnot, Function.update_self ..⟩
    · exact hothers none other hother
  · -- other parts still hold the key
    rename_i hpos
    obtain ⟨⟨key', held'⟩, hin, rfl⟩ :=
      Multiset.mem_map.mp (Multiset.count_ne_zero.mp hpos)
    obtain rfl : held' = held :=
      congrArg Prod.snd (hparts _ (Multiset.mem_cons_of_mem hin) _ (Multiset.mem_cons_self _ _) rfl)
    refine ⟨_, rfl, fun other => ?_, by rw [partCharge_cons_of_mem hin]; omega⟩
    by_cases hother : other = key'
    · subst hother
      exact .inr ⟨held', hin, Function.update_self ..⟩
    · exact hothers _ other hother

variable (overhead) in
/-- Counting the parts of one more holder. -/
theorem Accounts.addParts {more : List (K × ℕ)} (h : Accounts counts parts)
    (hparts : Consistent ((more : Multiset (K × ℕ)) + parts)) :
    Accounts (addParts overhead counts more).1 (↑more + parts) ∧
      partCharge overhead ((more : Multiset (K × ℕ)) + parts) =
        partCharge overhead parts + (addParts overhead counts more).2 := by
  induction more generalizing counts parts with
  | nil => exact ⟨by simpa [SharedCharges.addParts] using h, by simp [SharedCharges.addParts]⟩
  | cons part more ih =>
      have hperm : ((part :: more : List (K × ℕ)) : Multiset (K × ℕ)) + parts =
          ↑more + part ::ₘ parts := by
        rw [← Multiset.cons_coe, Multiset.cons_add, Multiset.add_cons]
      rw [hperm] at hparts ⊢
      obtain ⟨hone, hcharge⟩ := h.addPart overhead
        (hparts.mono fun x hx => Multiset.mem_add.mpr (.inr hx))
      obtain ⟨hall, hcharges⟩ := ih hone hparts
      refine ⟨hall, ?_⟩
      rw [hcharges, hcharge]
      show _ = _ + (_ + _)
      omega

variable (overhead) in
/-- The parts of a holder can be given back. -/
theorem Accounts.removeParts {fewer : List (K × ℕ)} (h : Accounts counts (↑fewer + parts))
    (hparts : Consistent ((fewer : Multiset (K × ℕ)) + parts)) :
    ∃ removed, removeParts overhead counts fewer = some removed ∧ Accounts removed.1 parts ∧
      partCharge overhead ((fewer : Multiset (K × ℕ)) + parts) = partCharge overhead parts + removed.2 := by
  induction fewer generalizing counts with
  | nil => exact ⟨_, rfl, by simpa using h, by simp⟩
  | cons part fewer ih =>
      rw [← Multiset.cons_coe, Multiset.cons_add] at h hparts ⊢
      obtain ⟨one, hone, haccounts, hcharge⟩ := h.removePart overhead hparts
      obtain ⟨rest, hrest, hall, hcharges⟩ :=
        ih haccounts (hparts.mono fun x hx => Multiset.mem_cons_of_mem hx)
      refine ⟨(rest.1, one.2 + rest.2), by simp [SharedCharges.removeParts, hone, hrest], hall, ?_⟩
      rw [hcharge, hcharges]
      show _ = _ + (_ + _)
      omega

/-! ## All holders -/

/-- The parts of all holders. -/
def heldParts (holdings : Multiset (Holding K)) : Multiset (K × ℕ) :=
  holdings.bind fun holding => holding.parts

/-- The charge of all holders, each part once. -/
def total (overhead : ℕ) (holdings : Multiset (Holding K)) : ℕ :=
  (holdings.map Holding.own).sum + partCharge overhead (heldParts holdings)

variable {holding : Holding K} {holdings : Multiset (Holding K)}

omit [DecidableEq K] in
@[simp]
theorem heldParts_cons :
    heldParts (holding ::ₘ holdings) = ↑holding.parts + heldParts holdings :=
  Multiset.cons_bind ..

omit [DecidableEq K] in
theorem heldParts_subset {fewer : Multiset (Holding K)} (h : fewer ≤ holdings) :
    ∀ x ∈ heldParts fewer, x ∈ heldParts holdings := by
  intro x hx
  obtain ⟨holder, hholder, hin⟩ := Multiset.mem_bind.mp hx
  exact Multiset.mem_bind.mpr ⟨holder, Multiset.mem_of_le h hholder, hin⟩

variable (overhead) in
/-- A new holder is charged what its parts add. -/
theorem total_cons_of_add (h : Accounts counts (heldParts holdings))
    (hparts : Consistent (heldParts (holding ::ₘ holdings))) :
    Accounts (addParts overhead counts holding.parts).1 (heldParts (holding ::ₘ holdings)) ∧
      total overhead (holding ::ₘ holdings) = total overhead holdings +
        (holding.own + (addParts overhead counts holding.parts).2) := by
  rw [heldParts_cons] at hparts ⊢
  obtain ⟨haccounts, hcharge⟩ := h.addParts overhead hparts
  refine ⟨haccounts, ?_⟩
  rw [total, heldParts_cons, hcharge, Multiset.map_cons, Multiset.sum_cons, total]
  omega

variable (overhead) in
/-- A holder that leaves gives back what it was charged. -/
theorem total_cons_of_remove (h : Accounts counts (heldParts (holding ::ₘ holdings)))
    (hparts : Consistent (heldParts (holding ::ₘ holdings))) :
    ∃ removed, removeParts overhead counts holding.parts = some removed ∧
      Accounts removed.1 (heldParts holdings) ∧
      total overhead (holding ::ₘ holdings) = total overhead holdings +
        (holding.own + removed.2) := by
  rw [heldParts_cons] at h hparts
  obtain ⟨removed, hremoved, haccounts, hcharge⟩ := h.removeParts overhead hparts
  refine ⟨removed, hremoved, haccounts, ?_⟩
  rw [total, heldParts_cons, hcharge, Multiset.map_cons, Multiset.sum_cons, total]
  omega

end Chronicle.Library.SharedCharges
