import Mathlib.Data.List.Flatten
import Mathlib.Data.List.Sort
import Chronicle.Pipeline.Row

/-!
# Lineages

The raw data rows of a lineage, and those of two lineages merged.
-/

namespace Chronicle.Pipeline

/-- The data row lies in the range. -/
def SourceDataRowRange.Holds (range : SourceDataRowRange) (source : Nat) : Prop :=
  range.first ≤ source ∧ source ≤ range.last

namespace SourceDataRows

/-- The ranges stand in the order of their first rows. -/
def Ordered (rows : SourceDataRows) : Prop := rows.Pairwise fun a b => a.first ≤ b.first

/-- The lineage of a row of an input of `count` data rows. -/
structure Lineage (count : Nat) (rows : SourceDataRows) : Prop where
  ordered : rows.Ordered
  nonempty : rows.iter ≠ []
  inInput : ∀ source ∈ rows.iter, 0 < source ∧ source ≤ count

/-- The ranges ascend, none is empty, and between two of them a data row is left out. The numbers are
those of a `u32`. -/
structure Separated (rows : SourceDataRows) : Prop where
  inhabited : ∀ range ∈ rows, range.first ≤ range.last ∧ range.last ≤ 4294967295
  apart : rows.Pairwise fun a b => a.last + 1 < b.first

variable {rows additional : SourceDataRows} {source count : Nat}

theorem mem_iter : source ∈ rows.iter ↔ ∃ range ∈ rows, range.Holds source := by
  rw [iter, List.mem_flatMap]
  refine exists_congr fun range => and_congr_right fun _ => ?_
  rw [List.mem_map, SourceDataRowRange.Holds]
  constructor
  · rintro ⟨offset, hoffset, rfl⟩
    rw [List.mem_range] at hoffset
    omega
  · intro h
    exact ⟨source - range.first, List.mem_range.mpr (by omega), by omega⟩

/-! ## Joining -/

theorem exists_mem_joinRanges {current : SourceDataRowRange} {rest : List SourceDataRowRange}
    (hordered : (current :: rest).Pairwise fun a b => a.first ≤ b.first) :
    (∃ range ∈ joinRanges current rest, range.Holds source) ↔
      ∃ range ∈ current :: rest, range.Holds source := by
  induction rest generalizing current with
  | nil => rfl
  | cons next rest ih =>
      obtain ⟨hcurrent, hrest⟩ := List.pairwise_cons.mp hordered
      obtain ⟨hnext, htail⟩ := List.pairwise_cons.mp hrest
      have hle : current.first ≤ next.first := hcurrent next List.mem_cons_self
      rw [joinRanges]
      split
      case isTrue hmeet =>
        have hjoined : ∀ source, (⟨current.first, max current.last next.last⟩ :
            SourceDataRowRange).Holds source ↔ current.Holds source ∨ next.Holds source := by
          intro source
          simp only [SourceDataRowRange.Holds]
          omega
        have hextended : (⟨current.first, max current.last next.last⟩ :: rest).Pairwise
            fun a b : SourceDataRowRange => a.first ≤ b.first :=
          List.pairwise_cons.mpr ⟨fun range hrange => hcurrent range
            (List.mem_cons_of_mem next hrange), htail⟩
        rw [ih hextended]
        simp only [List.exists_mem_cons_iff, hjoined, or_assoc]
      case isFalse =>
        rw [List.exists_mem_cons_iff, List.exists_mem_cons_iff, ih hrest]

theorem pairwise_joinRanges {current : SourceDataRowRange} {rest : List SourceDataRowRange}
    (hordered : (current :: rest).Pairwise fun a b => a.first ≤ b.first) :
    (joinRanges current rest).Pairwise (fun a b => a.first ≤ b.first) ∧
      ∀ range ∈ joinRanges current rest, current.first ≤ range.first := by
  induction rest generalizing current with
  | nil => simp [joinRanges]
  | cons next rest ih =>
      obtain ⟨hcurrent, hrest⟩ := List.pairwise_cons.mp hordered
      obtain ⟨hnext, htail⟩ := List.pairwise_cons.mp hrest
      rw [joinRanges]
      split
      case isTrue =>
        exact ih (List.pairwise_cons.mpr ⟨fun range hrange => hcurrent range
          (List.mem_cons_of_mem next hrange), htail⟩)
      case isFalse =>
        obtain ⟨hjoined, hfrom⟩ := ih hrest
        have hle : current.first ≤ next.first := hcurrent next List.mem_cons_self
        have hall : ∀ range ∈ joinRanges next rest, current.first ≤ range.first :=
          fun range hrange => hle.trans (hfrom range hrange)
        exact ⟨List.pairwise_cons.mpr ⟨hall, hjoined⟩,
          List.forall_mem_cons.mpr ⟨Nat.le_refl _, hall⟩⟩

/-! ## Merging -/

theorem ordered_merge_ranges (hrows : rows.Ordered) (hadditional : additional.Ordered) :
    (List.merge rows additional fun a b => a.first ≤ b.first).Pairwise
      fun a b => a.first ≤ b.first := by
  have hsorted := @List.pairwise_merge _ (fun a b : SourceDataRowRange => a.first ≤ b.first)
    (fun a b c hab hbc => by simp only [decide_eq_true_eq] at *; omega)
    (fun a b => by simp only [Bool.or_eq_true, decide_eq_true_eq]; omega)
    rows additional (hrows.imp fun h => by simpa using h) (hadditional.imp fun h => by simpa using h)
  exact hsorted.imp fun h => by simpa using h

/-- A merged lineage holds what the two lineages hold. -/
theorem mem_iter_merge (hrows : rows.Ordered) (hadditional : additional.Ordered) :
    source ∈ (rows.merge additional).iter ↔ source ∈ rows.iter ∨ source ∈ additional.iter := by
  rw [merge]
  split
  case isTrue hempty =>
    rw [List.isEmpty_iff.mp hempty]
    simp [iter]
  case isFalse =>
    split
    case isTrue hempty =>
      rw [List.isEmpty_iff.mp hempty]
      simp [iter]
    case isFalse hsome =>
      have hordered := ordered_merge_ranges hrows hadditional
      have hmem : ∀ range, range ∈ List.merge rows additional (fun a b => a.first ≤ b.first) ↔
          range ∈ rows ∨ range ∈ additional := fun range => List.mem_merge
      revert hordered hmem
      generalize List.merge rows additional (fun a b => a.first ≤ b.first) = merged
      intro hordered hmem
      have hunion : (∃ range ∈ merged, range.Holds source) ↔
          source ∈ rows.iter ∨ source ∈ additional.iter := by
        simp only [hmem, mem_iter, or_and_right, exists_or]
      cases merged with
      | nil => simpa [iter] using hunion
      | cons first rest => exact mem_iter.trans ((exists_mem_joinRanges hordered).trans hunion)

theorem ordered_merge (hrows : rows.Ordered) (hadditional : additional.Ordered) :
    (rows.merge additional).Ordered := by
  rw [merge]
  split
  · exact hrows
  · split
    · exact hadditional
    · have hordered := ordered_merge_ranges hrows hadditional
      revert hordered
      generalize List.merge rows additional (fun a b => a.first ≤ b.first) = merged
      intro hordered
      cases merged with
      | nil => exact List.Pairwise.nil
      | cons first rest => exact (pairwise_joinRanges hordered).1

theorem Separated.ordered (h : rows.Separated) : rows.Ordered :=
  h.apart.imp_of_mem fun {a _} ha _ hlt => by
    have hnonempty := (h.inhabited a ha).1
    omega

/-- Joining separates ordered ranges. -/
theorem separated_joinRanges {current : SourceDataRowRange} {rest : List SourceDataRowRange}
    (hordered : (current :: rest).Pairwise fun a b => a.first ≤ b.first)
    (hinhabited : ∀ range ∈ current :: rest, range.first ≤ range.last ∧ range.last ≤ 4294967295) :
    Separated (joinRanges current rest) := by
  induction rest generalizing current with
  | nil => exact ⟨hinhabited, List.pairwise_singleton _ _⟩
  | cons next rest ih =>
      obtain ⟨hcurrent, hrest⟩ := List.pairwise_cons.mp hordered
      obtain ⟨hnext, htail⟩ := List.pairwise_cons.mp hrest
      obtain ⟨hown, hothers⟩ := List.forall_mem_cons.mp hinhabited
      obtain ⟨hsecond, hlater⟩ := List.forall_mem_cons.mp hothers
      rw [joinRanges]
      split
      case isTrue hmeet =>
        refine ih (List.pairwise_cons.mpr ⟨fun range hrange => hcurrent range
          (List.mem_cons_of_mem next hrange), htail⟩) (List.forall_mem_cons.mpr ⟨?_, hlater⟩)
        dsimp only
        omega
      case isFalse hapart =>
        have hjoined := ih hrest hothers
        refine ⟨List.forall_mem_cons.mpr ⟨hown, hjoined.inhabited⟩,
          List.pairwise_cons.mpr ⟨fun range hrange => ?_, hjoined.apart⟩⟩
        have hfrom := (pairwise_joinRanges hrest).2 range hrange
        omega

theorem Separated.merge (h : rows.Separated) (hadditional : additional.Separated) :
    (rows.merge additional).Separated := by
  rw [SourceDataRows.merge]
  split
  · exact h
  · split
    · exact hadditional
    · have hordered := ordered_merge_ranges h.ordered hadditional.ordered
      have hinhabited : ∀ range ∈ List.merge rows additional (fun a b => a.first ≤ b.first),
          range.first ≤ range.last ∧ range.last ≤ 4294967295 := fun range hrange =>
        (List.mem_merge.mp hrange).elim (h.inhabited range) (hadditional.inhabited range)
      revert hordered hinhabited
      generalize List.merge rows additional (fun a b => a.first ≤ b.first) = merged
      intro hordered hinhabited
      cases merged with
      | nil => exact ⟨hinhabited, List.Pairwise.nil⟩
      | cons first rest => exact separated_joinRanges hordered hinhabited

theorem Lineage.merge (h : rows.Lineage count) (hadditional : additional.Lineage count) :
    (rows.merge additional).Lineage count where
  ordered := ordered_merge h.ordered hadditional.ordered
  nonempty := by
    obtain ⟨source, hsource⟩ := List.exists_mem_of_ne_nil _ h.nonempty
    exact List.ne_nil_of_mem ((mem_iter_merge h.ordered hadditional.ordered).mpr (.inl hsource))
  inInput source hsource :=
    ((mem_iter_merge h.ordered hadditional.ordered).mp hsource).elim (h.inInput source)
      (hadditional.inInput source)

end SourceDataRows

end Chronicle.Pipeline
