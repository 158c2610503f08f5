import Mathlib.Data.List.Pairwise
import Mathlib.Logic.Function.Basic

/-!
# Facts that are declared piece by piece

Declarations about keys come one after another. A store keeps what was declared of each key, merged,
and refuses a declaration that does not agree with it. The order of the declarations does not
decide whether all of them are taken.
-/

namespace Chronicle.Library.Declarations

variable {κ α β γ : Type}

/-- How facts agree and merge: a fact agrees with merged ones exactly if it does with each. -/
structure Merging (α : Type) where
  agrees : α → α → Bool
  merge : α → α → α
  symm : ∀ a b, agrees a b = agrees b a
  agrees_merge : ∀ a b c, agrees a b = true → agrees (merge a b) c = (agrees a c && agrees b c)

/-- What is kept of each key. -/
abbrev Store (κ α : Type) := κ → Option α

variable [DecidableEq κ]

/-- One declaration, merged over what was kept before. -/
def declare (merging : Merging α) (store : Store κ α) (key : κ) (facts : α) :
    Option (Store κ α) :=
  match store key with
  | none => some (Function.update store key (some facts))
  | some prior =>
      if merging.agrees prior facts then
        some (Function.update store key (some (merging.merge facts prior)))
      else none

/-- The declarations of a list, in its order. -/
def declareAll (merging : Merging α) : List (κ × α) → Store κ α → Option (Store κ α)
  | [], store => some store
  | (key, facts) :: rest, store => (declare merging store key facts).bind (declareAll merging rest)

/-- Two declarations that do not contradict each other. -/
def Agree (merging : Merging α) (a b : κ × α) : Prop :=
  a.1 = b.1 → merging.agrees a.2 b.2 = true

variable {merging : Merging α} {store after : Store κ α} {before l : List (κ × α)} {key : κ}
  {facts : α}

omit [DecidableEq κ] in
theorem Agree.symm {a b : κ × α} (h : Agree merging a b) : Agree merging b a :=
  fun heq => (merging.symm b.2 a.2).trans (h heq.symm)

theorem declareAll_append (first second : List (κ × α)) (store : Store κ α) :
    declareAll merging (first ++ second) store =
      (declareAll merging first store).bind (declareAll merging second) := by
  induction first generalizing store with
  | nil => rfl
  | cons declaration rest ih =>
      obtain ⟨key, facts⟩ := declaration
      change (declare merging store key facts).bind (declareAll merging (rest ++ second)) =
        ((declare merging store key facts).bind (declareAll merging rest)).bind _
      rw [Option.bind_assoc, show declareAll merging (rest ++ second) = _ from funext ih]

/-- The store keeps of each key what was declared of it. -/
structure Keeps (merging : Merging α) (before : List (κ × α)) (store : Store κ α) : Prop where
  absent : ∀ key, store key = none → ∀ declared ∈ before, declared.1 ≠ key
  agrees : ∀ key facts, store key = some facts → ∀ other,
    merging.agrees facts other = true ↔
      ∀ declared ∈ before, declared.1 = key → merging.agrees declared.2 other = true

omit [DecidableEq κ] in
theorem keeps_nil : Keeps merging ([] : List (κ × α)) fun _ => none :=
  ⟨fun _ _ => List.forall_mem_nil _, fun _ _ h => nomatch h⟩

/-- A declaration is taken exactly if it agrees with every one before it. -/
theorem Keeps.declare_isSome (h : Keeps merging before store) :
    (declare merging store key facts).isSome = true ↔
      ∀ declared ∈ before, Agree merging declared (key, facts) := by
  unfold declare
  split
  · rename_i hnone
    exact iff_of_true rfl fun declared hmem heq => absurd heq (h.absent key hnone declared hmem)
  · rename_i prior hprior
    refine Iff.trans ?_ (h.agrees key prior hprior facts)
    by_cases hagrees : merging.agrees prior facts = true
    · rw [if_pos hagrees]
      exact iff_of_true rfl hagrees
    · rw [if_neg hagrees]
      exact iff_of_false (by simp) hagrees

/-- The store after a declaration whose merged facts agree as they should. -/
theorem Keeps.update (h : Keeps merging before store) {merged : α}
    (hmerged : ∀ other, merging.agrees merged other = true ↔
      (∀ declared ∈ before, declared.1 = key → merging.agrees declared.2 other = true) ∧
        merging.agrees facts other = true) :
    Keeps merging (before ++ [(key, facts)]) (Function.update store key (some merged)) := by
  refine ⟨fun k hk declared hmem heq => ?_, fun k kept hk other => ?_⟩
  · by_cases hkey : k = key
    · rw [hkey, Function.update_self] at hk
      cases hk
    · rw [Function.update_of_ne hkey] at hk
      rcases List.mem_append.mp hmem with hmem | hmem
      · exact h.absent k hk declared hmem heq
      · rw [List.mem_singleton.mp hmem] at heq
        exact hkey heq.symm
  · rw [List.forall_mem_append, List.forall_mem_singleton]
    by_cases hkey : k = key
    · subst hkey
      rw [Function.update_self, Option.some.injEq] at hk
      rw [← hk, hmerged other]
      exact and_congr_right fun _ => ⟨fun hfacts _ => hfacts, fun hfacts => hfacts rfl⟩
    · rw [Function.update_of_ne hkey] at hk
      rw [h.agrees k kept hk other]
      exact ⟨fun hall => ⟨hall, fun heq => absurd heq.symm hkey⟩, And.left⟩

theorem Keeps.declare (h : Keeps merging before store)
    (htaken : declare merging store key facts = some after) :
    Keeps merging (before ++ [(key, facts)]) after := by
  unfold Declarations.declare at htaken
  split at htaken
  · rename_i hnone
    obtain rfl := Option.some.inj htaken
    refine h.update fun other => ⟨fun hfacts => ⟨fun declared hmem heq => ?_, hfacts⟩, And.right⟩
    exact absurd heq (h.absent key hnone declared hmem)
  · rename_i prior hprior
    split at htaken
    · rename_i hagrees
      obtain rfl := Option.some.inj htaken
      refine h.update fun other => ?_
      rw [merging.agrees_merge facts prior other ((merging.symm facts prior).trans hagrees),
        Bool.and_eq_true, h.agrees key prior hprior other, and_comm]
    · cases htaken

/-- A run takes every declaration exactly if no two of them contradict each other. -/
theorem Keeps.declareAll_isSome (h : Keeps merging before store)
    (hbefore : before.Pairwise (Agree merging)) :
    (declareAll merging l store).isSome = true ↔ (before ++ l).Pairwise (Agree merging) := by
  induction l generalizing before store with
  | nil =>
      rw [List.append_nil]
      exact iff_of_true rfl hbefore
  | cons declaration rest ih =>
      obtain ⟨key, facts⟩ := declaration
      have hone : (Declarations.declare merging store key facts).isSome = true ↔
          ∀ declared ∈ before, Agree merging declared (key, facts) := h.declare_isSome
      change ((Declarations.declare merging store key facts).bind _).isSome = true ↔ _
      rw [List.append_cons]
      cases htaken : Declarations.declare merging store key facts with
      | none =>
          rw [htaken] at hone
          refine iff_of_false (by simp) fun hpairs => ?_
          have hfirst := (List.pairwise_append.mp (List.pairwise_append.mp hpairs).1).2.2
          have hall := hone.mpr fun declared hmem =>
            hfirst declared hmem _ (List.mem_singleton.mpr rfl)
          cases hall
      | some next =>
          rw [htaken] at hone
          have hnext : (before ++ [(key, facts)]).Pairwise (Agree merging) := by
            refine List.pairwise_append.mpr ⟨hbefore, List.pairwise_singleton _ _, ?_⟩
            intro declared hmem last hlast
            rw [List.mem_singleton.mp hlast]
            exact hone.mp rfl declared hmem
          exact ih (h.declare htaken) hnext

/-- From nothing, the declarations of a list are all taken exactly if no two contradict. -/
theorem declareAll_isSome (merging : Merging α) (l : List (κ × α)) :
    (declareAll merging l fun _ => none).isSome = true ↔ l.Pairwise (Agree merging) :=
  keeps_nil.declareAll_isSome List.Pairwise.nil

/-- The order does not decide whether all declarations are taken. -/
theorem declareAll_isSome_of_perm {l' : List (κ × α)} (hperm : l.Perm l') :
    (declareAll merging l fun _ => none).isSome = (declareAll merging l' fun _ => none).isSome := by
  rw [Bool.eq_iff_iff, declareAll_isSome, declareAll_isSome]
  exact hperm.pairwise_iff Agree.symm

section Known

variable {known : α → Option β}

/-- A value that is known after one declaration. -/
theorem known_declare (hmerge : ∀ a b, known (merging.merge a b) = (known a).or (known b))
    (htaken : declare merging store key facts = some after) (k : κ) :
    (after k).bind known =
      if k = key then (known facts).or ((store key).bind known) else (store k).bind known := by
  unfold declare at htaken
  split at htaken
  · rename_i hnone
    obtain rfl := Option.some.inj htaken
    by_cases hkey : k = key
    · rw [if_pos hkey, hkey, Function.update_self, hnone, Option.bind_none, Option.or_none]
      rfl
    · rw [if_neg hkey, Function.update_of_ne hkey]
  · rename_i prior hprior
    split at htaken
    · obtain rfl := Option.some.inj htaken
      by_cases hkey : k = key
      · rw [if_pos hkey, hkey, Function.update_self, hprior]
        exact hmerge facts prior
      · rw [if_neg hkey, Function.update_of_ne hkey]
    · cases htaken

/-- A value that is known after a run was known before it or comes from a declaration; if none is,
there was none and no declaration of the key has one. -/
theorem known_declareAll (hmerge : ∀ a b, known (merging.merge a b) = (known a).or (known b))
    (hrun : declareAll merging l store = some after) (k : κ) :
    (∀ value, (after k).bind known = some value → (store k).bind known = some value ∨
      ∃ declared ∈ l, declared.1 = k ∧ known declared.2 = some value) ∧
    ((after k).bind known = none → (store k).bind known = none ∧
      ∀ declared ∈ l, declared.1 = k → known declared.2 = none) := by
  induction l generalizing store with
  | nil =>
      obtain rfl := Option.some.inj hrun
      exact ⟨fun value h => Or.inl h, fun h => ⟨h, List.forall_mem_nil _⟩⟩
  | cons declaration rest ih =>
      obtain ⟨key, facts⟩ := declaration
      obtain ⟨next, htaken, hrest⟩ := Option.bind_eq_some_iff.mp hrun
      have hnext := known_declare hmerge htaken k
      obtain ⟨hsome, hnone⟩ := ih hrest
      refine ⟨fun value hvalue => ?_, fun habsent => ?_⟩
      · rcases hsome value hvalue with hbefore | ⟨declared, hmem, heq, hknown⟩
        · rw [hnext] at hbefore
          split at hbefore
          · rename_i hkey
            rcases Option.or_eq_some_iff.mp hbefore with hfacts | ⟨-, hprior⟩
            · exact Or.inr ⟨(key, facts), List.mem_cons_self, hkey.symm, hfacts⟩
            · exact Or.inl (hkey ▸ hprior)
          · exact Or.inl hbefore
        · exact Or.inr ⟨declared, List.mem_cons_of_mem _ hmem, heq, hknown⟩
      · obtain ⟨hbefore, hdeclared⟩ := hnone habsent
        rw [hnext] at hbefore
        split at hbefore
        · rename_i hkey
          obtain ⟨hfacts, hprior⟩ := Option.or_eq_none_iff.mp hbefore
          exact ⟨hkey ▸ hprior, List.forall_mem_cons.mpr ⟨fun _ => hfacts, hdeclared⟩⟩
        · rename_i hkey
          exact ⟨hbefore, List.forall_mem_cons.mpr
            ⟨fun heq => absurd heq.symm hkey, hdeclared⟩⟩

/-- What is known at the end does not depend on the order, up to what agreeing facts share. -/
theorem known_of_perm (hmerge : ∀ a b, known (merging.merge a b) = (known a).or (known b))
    {view : β → γ} (hview : ∀ a b v w, merging.agrees a b = true → known a = some v →
      known b = some w → view v = view w) {l' : List (κ × α)} {after' : Store κ α}
    (hperm : l.Perm l') (hrun : declareAll merging l (fun _ => none) = some after)
    (hrun' : declareAll merging l' (fun _ => none) = some after') (k : κ) :
    ((after k).bind known).map view = ((after' k).bind known).map view := by
  obtain ⟨hsome, hnone⟩ := known_declareAll hmerge hrun k
  obtain ⟨hsome', hnone'⟩ := known_declareAll hmerge hrun' k
  have hpairs : l.Pairwise (Agree merging) :=
    (declareAll_isSome merging l).mp (Option.isSome_iff_exists.mpr ⟨after, hrun⟩)
  -- two declarations of a key that both know a value know the same one
  let Shares (a b : κ × α) : Prop :=
    a.1 = b.1 → ∀ v w, known a.2 = some v → known b.2 = some w → view v = view w
  have hsymm : Std.Symm Shares :=
    ⟨fun a b h heq v w hv hw => (h heq.symm w v hw hv).symm⟩
  have hself : ∀ a ∈ l, Shares a a := by
    intro a _ _ v w hv hw
    rw [Option.some.inj (hv.symm.trans hw)]
  have hshared : ∀ ⦃a⦄, a ∈ l → ∀ ⦃b⦄, b ∈ l → Shares a b :=
    List.Pairwise.forall_of_forall hself
      (hpairs.imp fun {a b} hagree heq v w hv hw => hview a.2 b.2 v w (hagree heq) hv hw)
  -- what is known of a key comes from one of its declarations, in either order
  cases hvalue : (after k).bind known with
  | none =>
      cases hvalue' : (after' k).bind known with
      | none => rfl
      | some value =>
          rcases hsome' value hvalue' with hstart | ⟨declared, hmem, heq, hknown⟩
          · cases hstart
          · rw [(hnone hvalue).2 declared (hperm.mem_iff.mpr hmem) heq] at hknown
            cases hknown
  | some value =>
      rcases hsome value hvalue with hstart | ⟨declared, hmem, heq, hknown⟩
      · cases hstart
      · cases hvalue' : (after' k).bind known with
        | none =>
            rw [(hnone' hvalue').2 declared (hperm.mem_iff.mp hmem) heq] at hknown
            cases hknown
        | some value' =>
            rcases hsome' value' hvalue' with hstart | ⟨declared', hmem', heq', hknown'⟩
            · cases hstart
            · exact congrArg some (hshared hmem (hperm.mem_iff.mpr hmem')
                (heq.trans heq'.symm) value value' hknown hknown')

end Known

end Chronicle.Library.Declarations
