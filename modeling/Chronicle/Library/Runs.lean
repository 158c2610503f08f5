import Mathlib.Data.List.Induction

/-!
# Runs of a list

A list is cut into runs from left to right: an element joins the last run when the envelope of that
run admits it, and else begins a run of its own.
-/

namespace Chronicle.Library.Runs

/-- How an envelope begins, grows and admits. -/
structure Grouping (α E : Type*) where
  first : α → E
  extend : E → α → E
  joins : E → α → Bool

namespace Grouping

variable {α E : Type*} (g : Grouping α E)

/-- The envelope of a run. -/
def envelope : List α → Option E
  | [] => none
  | x :: rest => some (rest.foldl g.extend (g.first x))

/-- The runs after one more element. -/
def add (runs : List (List α)) (x : α) : List (List α) :=
  match runs.getLast? with
  | none => [[x]]
  | some run =>
      if (g.envelope run).any (g.joins · x) then runs.dropLast ++ [run ++ [x]] else runs ++ [[x]]

/-- The runs of a list. -/
def runs (l : List α) : List (List α) := l.foldl g.add []

variable {g} {l : List α} {x : α}

theorem runs_nil : g.runs [] = [] := rfl

theorem runs_append_singleton (l : List α) (x : α) : g.runs (l ++ [x]) = g.add (g.runs l) x := by
  rw [runs, List.foldl_append]
  rfl

theorem add_append_singleton (before : List (List α)) (run : List α) (x : α) :
    g.add (before ++ [run]) x =
      if (g.envelope run).any (g.joins · x) then before ++ [run ++ [x]]
      else before ++ [run] ++ [[x]] := by
  simp [add]

/-- A run has an envelope. -/
theorem envelope_append_singleton {run : List α} {e : E} (h : g.envelope run = some e) (x : α) :
    g.envelope (run ++ [x]) = some (g.extend e x) := by
  cases run with
  | nil => cases h
  | cons first rest =>
      obtain rfl := Option.some.inj h
      rw [List.cons_append, envelope, List.foldl_append]
      rfl

theorem exists_envelope {run : List α} (h : run ≠ []) : ∃ e, g.envelope run = some e := by
  cases run with
  | nil => exact absurd rfl h
  | cons first rest => exact ⟨_, rfl⟩

theorem ne_nil_of_mem_runs {run : List α} (h : run ∈ g.runs l) : run ≠ [] := by
  induction l using List.reverseRecOn generalizing run with
  | nil => exact absurd h List.not_mem_nil
  | append_singleton l x ih =>
      rw [runs_append_singleton] at h
      rcases List.eq_nil_or_concat (g.runs l) with hnil | ⟨before, last, hlast⟩
      · rw [hnil] at h
        rw [List.mem_singleton.mp h]
        exact List.cons_ne_nil _ _
      · rw [List.concat_eq_append] at hlast
        rw [hlast] at ih
        rw [hlast, add_append_singleton] at h
        split at h
        · rcases List.mem_append.mp h with h | h
          · exact ih (List.mem_append_left _ h)
          · rw [List.mem_singleton.mp h]
            simp
        · rcases List.mem_append.mp h with h | h
          · exact ih h
          · rw [List.mem_singleton.mp h]
            exact List.cons_ne_nil _ _

/-- The runs are the list. -/
theorem flatten_runs (l : List α) : (g.runs l).flatten = l := by
  induction l using List.reverseRecOn with
  | nil => rfl
  | append_singleton l x ih =>
      rw [runs_append_singleton]
      rcases List.eq_nil_or_concat (g.runs l) with hnil | ⟨before, last, hlast⟩
      · rw [hnil] at ih ⊢
        rw [← ih]
        rfl
      · rw [List.concat_eq_append] at hlast
        rw [hlast] at ih ⊢
        rw [add_append_singleton]
        conv_rhs => rw [← ih]
        split <;> simp

/-- Every element of a run but the first was admitted by the envelope of those before it. -/
theorem joins_of_mem_runs {run : List α} (h : run ∈ g.runs l) {before after : List α}
    (hrun : run = before ++ x :: after) (hbefore : before ≠ []) :
    ∃ e, g.envelope before = some e ∧ g.joins e x = true := by
  induction l using List.reverseRecOn generalizing run before after x with
  | nil => exact absurd h List.not_mem_nil
  | append_singleton l y ih =>
      have hsingle : ∀ {before after : List α}, before ≠ [] → [y] ≠ before ++ x :: after := by
        intro before after hne heq
        have hlength := congrArg List.length heq
        have hpos := List.length_pos_iff.mpr hne
        rw [List.length_singleton, List.length_append, List.length_cons] at hlength
        omega
      rw [runs_append_singleton] at h
      rcases List.eq_nil_or_concat (g.runs l) with hnil | ⟨runs, last, hlast⟩
      · rw [hnil] at h
        rw [List.mem_singleton.mp h] at hrun
        exact absurd hrun (hsingle hbefore)
      · rw [List.concat_eq_append] at hlast
        rw [hlast] at ih
        rw [hlast, add_append_singleton] at h
        split at h
        · rename_i hjoins
          rcases List.mem_append.mp h with h | h
          · exact ih (List.mem_append_left _ h) hrun hbefore
          · rw [List.mem_singleton.mp h] at hrun
            rcases List.eq_nil_or_concat after with rfl | ⟨after, z, rfl⟩
            · obtain ⟨rfl, hx⟩ := List.append_inj' hrun rfl
              obtain rfl := List.singleton_inj.mp hx
              obtain ⟨e, he, hjoin⟩ := Option.any_eq_true _ _ |>.mp hjoins
              exact ⟨e, he, hjoin⟩
            · rw [List.concat_eq_append, ← List.cons_append, ← List.append_assoc] at hrun
              obtain ⟨hlastEq, -⟩ := List.append_inj' hrun rfl
              exact ih (List.mem_append_right _ List.mem_cons_self) hlastEq hbefore
        · rcases List.mem_append.mp h with h | h
          · exact ih h hrun hbefore
          · rw [List.mem_singleton.mp h] at hrun
            exact absurd hrun (hsingle hbefore)

end Grouping

end Chronicle.Library.Runs
