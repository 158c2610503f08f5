import Mathlib.Data.List.SplitBy

/-!
# Blocks of a list

Some elements of a list carry a name. A named element begins a block, and the block goes on until an
element with another name begins the next one. So the named elements of the blocks are the longest
runs of elements with one name, and what comes before the first block carries no name.
-/

namespace Chronicle.Library.Blocks

variable {α κ : Type*}

/-- A block with its name and the element that begins it. -/
structure Block (α κ : Type*) where
  name : κ
  head : α
  tail : List α

/-- All elements of a block. -/
def Block.elements (block : Block α κ) : List α := block.head :: block.tail

/-- The block with one more element. -/
def Block.push (block : Block α κ) (x : α) : Block α κ := { block with tail := block.tail ++ [x] }

theorem Block.elements_push (block : Block α κ) (x : α) :
    (block.push x).elements = block.elements ++ [x] := rfl

variable (label : α → Option κ) in
/-- The block begins with its name, and no element of it has another one. -/
structure Block.Named (block : Block α κ) : Prop where
  head : label block.head = some block.name
  tail : ∀ x ∈ block.tail, ∀ name ∈ label x, name = block.name

variable {label : α → Option κ} {block : Block α κ} {l : List α} {x : α} {name : κ}

theorem Block.Named.push (h : block.Named label) (hx : ∀ name ∈ label x, name = block.name) :
    (block.push x).Named label := by
  refine ⟨h.head, ?_⟩
  intro y hy
  rcases List.mem_append.mp hy with hy | hy
  · exact h.tail y hy
  · rwa [List.mem_singleton.mp hy]

theorem named_singleton (hx : label x = some name) : (⟨name, x, []⟩ : Block α κ).Named label :=
  ⟨hx, fun _ h => absurd h List.not_mem_nil⟩

theorem Block.Named.of_mem (h : block.Named label) (hx : x ∈ block.elements) :
    ∀ name ∈ label x, name = block.name := by
  rcases List.mem_cons.mp hx with rfl | hx
  · intro name hname
    rw [h.head] at hname
    exact (Option.mem_some_iff.mp hname).symm
  · exact h.tail x hx

/-- The elements of a block that carry its name. -/
def Block.run (label : α → Option κ) (block : Block α κ) : List α :=
  block.elements.filter fun x => (label x).isSome

theorem Block.Named.label_of_mem_run (h : block.Named label) (hx : x ∈ block.run label) :
    label x = some block.name := by
  obtain ⟨hmem, hsome⟩ := List.mem_filter.mp hx
  obtain ⟨name, hname⟩ := Option.isSome_iff_exists.mp hsome
  rw [hname, h.of_mem hmem name hname]

theorem Block.Named.run_ne_nil (h : block.Named label) : block.run label ≠ [] := by
  have hhead : block.head ∈ block.run label :=
    List.mem_filter.mpr ⟨List.mem_cons_self, by rw [h.head]; rfl⟩
  exact List.ne_nil_of_mem hhead

section Decided

variable [DecidableEq κ]

variable (label) in

/-- The blocks of a list, with the block that is still open before it. -/
def blocks : Option (Block α κ) → List α → List (Block α κ)
  | none, [] => []
  | some block, [] => [block]
  | none, x :: l =>
      match label x with
      | none => blocks none l
      | some name => blocks (some ⟨name, x, []⟩) l
  | some block, x :: l =>
      match label x with
      | none => blocks (some (block.push x)) l
      | some name =>
          if block.name = name then blocks (some (block.push x)) l
          else block :: blocks (some ⟨name, x, []⟩) l

/-- An element without a name, or with that of the open block, belongs to it. -/
theorem blocks_push (hx : ∀ name ∈ label x, name = block.name) :
    blocks label (some block) (x :: l) = blocks label (some (block.push x)) l := by
  rw [blocks]
  cases hlabel : label x with
  | none => rfl
  | some name => exact if_pos (hx name hlabel).symm

theorem blocks_next (hx : label x = some name) (hne : block.name ≠ name) :
    blocks label (some block) (x :: l) = block :: blocks label (some ⟨name, x, []⟩) l := by
  rw [blocks, hx]
  exact if_neg hne

theorem blocks_idle (hx : label x = none) : blocks label none (x :: l) = blocks label none l := by
  rw [blocks, hx]

theorem blocks_start (hx : label x = some name) :
    blocks label none (x :: l) = blocks label (some ⟨name, x, []⟩) l := by
  rw [blocks, hx]

/-- Either the element belongs to the open block, or it begins another one. -/
theorem push_or_next (label : α → Option κ) (block : Block α κ) (x : α) :
    (∀ name ∈ label x, name = block.name) ∨ ∃ name, label x = some name ∧ block.name ≠ name := by
  cases hlabel : label x with
  | none => exact .inl fun _ h => absurd h (Option.not_mem_none _)
  | some name =>
      by_cases hname : block.name = name
      · refine .inl fun other hother => ?_
        rw [← Option.mem_some_iff.mp hother, hname]
      · exact .inr ⟨name, rfl, hname⟩

variable (label) in
/-- The open block is the first one. -/
theorem exists_blocks_some (block : Block α κ) (l : List α) :
    ∃ first rest, blocks label (some block) l = first :: rest ∧ first.name = block.name := by
  induction l generalizing block with
  | nil => exact ⟨block, [], rfl, rfl⟩
  | cons x l ih =>
      rcases push_or_next label block x with hpush | ⟨name, hx, hne⟩
      · obtain ⟨first, rest, hblocks, hname⟩ := ih (block.push x)
        exact ⟨first, rest, by rw [blocks_push hpush, hblocks], hname⟩
      · exact ⟨block, _, blocks_next hx hne, rfl⟩

variable (label) in
theorem flatMap_blocks_some (block : Block α κ) (l : List α) :
    (blocks label (some block) l).flatMap Block.elements = block.elements ++ l := by
  induction l generalizing block with
  | nil => simp [blocks]
  | cons x l ih =>
      rcases push_or_next label block x with hpush | ⟨name, hx, hne⟩
      · rw [blocks_push hpush, ih, Block.elements_push, List.append_assoc, List.singleton_append]
      · rw [blocks_next hx hne, List.flatMap_cons, ih]
        rfl

variable (label) in
/-- What comes before the first block carries no name. -/
theorem exists_idle (l : List α) :
    ∃ idle, (∀ x ∈ idle, label x = none) ∧
      l = idle ++ (blocks label none l).flatMap Block.elements := by
  induction l with
  | nil => exact ⟨[], fun _ h => absurd h List.not_mem_nil, rfl⟩
  | cons x l ih =>
      cases hlabel : label x with
      | none =>
          obtain ⟨idle, hidle, hl⟩ := ih
          refine ⟨x :: idle, List.forall_mem_cons.mpr ⟨hlabel, hidle⟩, ?_⟩
          rw [blocks_idle hlabel, List.cons_append, ← hl]
      | some name =>
          refine ⟨[], fun _ h => absurd h List.not_mem_nil, ?_⟩
          rw [blocks_start hlabel, flatMap_blocks_some]
          rfl

theorem named_of_mem_some (hblock : block.Named label) {other : Block α κ}
    (h : other ∈ blocks label (some block) l) : other.Named label := by
  induction l generalizing block with
  | nil => rwa [List.mem_singleton.mp h]
  | cons x l ih =>
      rcases push_or_next label block x with hpush | ⟨name, hx, hne⟩
      · rw [blocks_push hpush] at h
        exact ih (hblock.push hpush) h
      · rw [blocks_next hx hne] at h
        rcases List.mem_cons.mp h with rfl | h
        · exact hblock
        · exact ih (named_singleton hx) h

theorem named_of_mem {other : Block α κ} (h : other ∈ blocks label none l) : other.Named label := by
  induction l with
  | nil => exact absurd h List.not_mem_nil
  | cons x l ih =>
      cases hlabel : label x with
      | none => exact ih (blocks_idle hlabel ▸ h)
      | some name => exact named_of_mem_some (named_singleton hlabel) (blocks_start hlabel ▸ h)

variable (label) in
theorem isChain_blocks_some (block : Block α κ) (l : List α) :
    (blocks label (some block) l).IsChain fun first second => first.name ≠ second.name := by
  induction l generalizing block with
  | nil => exact .singleton block
  | cons x l ih =>
      rcases push_or_next label block x with hpush | ⟨name, hx, hne⟩
      · rw [blocks_push hpush]
        exact ih _
      -- the block that begins here is the next one, whatever it takes in later
      · obtain ⟨first, rest, hblocks, hname⟩ := exists_blocks_some label ⟨name, x, []⟩ l
        have hchain := ih ⟨name, x, []⟩
        rw [hblocks] at hchain
        rw [blocks_next hx hne, hblocks]
        refine hchain.cons_cons ?_
        rwa [hname]

variable (label) in
/-- Blocks that follow each other have different names. -/
theorem isChain_blocks (l : List α) :
    (blocks label none l).IsChain fun first second => first.name ≠ second.name := by
  induction l with
  | nil => exact .nil
  | cons x l ih =>
      cases hlabel : label x with
      | none => rwa [blocks_idle hlabel]
      | some name =>
          rw [blocks_start hlabel]
          exact isChain_blocks_some label _ l

variable (label) in
/-- The blocks hold the longest runs of elements with one name. -/
theorem map_run_blocks (l : List α) :
    (blocks label none l).map (Block.run label) =
      (l.filter fun x => (label x).isSome).splitBy fun x y => label x = label y := by
  have hnamed : ∀ block ∈ blocks label none l, block.Named label := fun block h => named_of_mem h
  have hflatten : ((blocks label none l).map (Block.run label)).flatten =
      l.filter fun x => (label x).isSome := by
    obtain ⟨idle, hidle, hl⟩ := exists_idle label l
    conv_rhs => rw [hl]
    have hnone : (idle.filter fun x => (label x).isSome) = [] :=
      List.filter_eq_nil_iff.mpr fun x hx => by simp [hidle x hx]
    rw [List.filter_append, hnone, List.nil_append, List.filter_flatMap, List.flatMap_def]
    rfl
  -- no run is empty, a run has one name, and neighbouring runs have different ones
  rw [← hflatten, List.splitBy_flatten]
  · intro hnil
    obtain ⟨block, hblock, hempty⟩ := List.mem_map.mp hnil
    exact (hnamed block hblock).run_ne_nil hempty
  · intro run hrun
    obtain ⟨block, hblock, rfl⟩ := List.mem_map.mp hrun
    have hname := fun x hx => (hnamed block hblock).label_of_mem_run (x := x) hx
    refine List.Pairwise.isChain (List.pairwise_of_forall_mem_list ?_)
    intro x hx y hy
    simp [hname x hx, hname y hy]
  · refine (List.isChain_map _).mpr ((isChain_blocks label l).imp_of_mem_imp ?_)
    intro first second hfirst hsecond hne
    have hlast := List.getLast_mem (hnamed first hfirst).run_ne_nil
    have hhead := List.head_mem (hnamed second hsecond).run_ne_nil
    refine ⟨(hnamed first hfirst).run_ne_nil, (hnamed second hsecond).run_ne_nil, ?_⟩
    rw [(hnamed first hfirst).label_of_mem_run hlast,
      (hnamed second hsecond).label_of_mem_run hhead]
    simpa using hne

end Decided

end Chronicle.Library.Blocks
