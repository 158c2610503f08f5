import Mathlib.Algebra.Group.Basic

/-!
# Scans that emit results

A scan reads a list from left to right, keeps a state, and adds up what it emits; at the end it
emits what its last state still holds.
-/

namespace Chronicle.Library

variable {σ α M : Type*} [AddMonoid M]

/-- One step of a scan, and what the last state emits. -/
structure Scan (σ α M : Type*) where
  step : σ → α → σ × M
  finish : σ → M

namespace Scan

variable (scan : Scan σ α M)

/-- Everything the scan emits on the list. -/
def run : σ → List α → M
  | s, [] => scan.finish s
  | s, x :: l => (scan.step s x).2 + run (scan.step s x).1 l

/-- The state after the list. -/
def state (s : σ) (l : List α) : σ := l.foldl (fun s x => (scan.step s x).1) s

/-- What the scan emits before the end of the list. -/
def emitted : σ → List α → M
  | _, [] => 0
  | s, x :: l => (scan.step s x).2 + emitted (scan.step s x).1 l

/-- The element changes nothing and emits nothing. -/
def Quiet (s : σ) (x : α) : Prop := scan.step s x = (s, 0)

variable {scan} {s : σ} {l : List α}

@[simp]
theorem run_nil : scan.run s [] = scan.finish s := rfl

theorem run_cons (x : α) :
    scan.run s (x :: l) = (scan.step s x).2 + scan.run (scan.step s x).1 l := rfl

omit [AddMonoid M] in
@[simp]
theorem state_nil : scan.state s [] = s := rfl

omit [AddMonoid M] in
@[simp]
theorem state_cons (x : α) : scan.state s (x :: l) = scan.state (scan.step s x).1 l := rfl

omit [AddMonoid M] in
theorem state_append (first second : List α) :
    scan.state s (first ++ second) = scan.state (scan.state s first) second :=
  List.foldl_append

theorem run_append (first second : List α) :
    scan.run s (first ++ second) = scan.emitted s first + scan.run (scan.state s first) second := by
  induction first generalizing s with
  | nil => exact (zero_add _).symm
  | cons x first ih => rw [List.cons_append, run_cons, ih, emitted, state_cons, add_assoc]

theorem run_cons_quiet {x : α} (h : scan.Quiet s x) : scan.run s (x :: l) = scan.run s l := by
  rw [run_cons, h, zero_add]

theorem run_append_quiet {first : List α} (h : ∀ x ∈ first, scan.Quiet s x) (second : List α) :
    scan.run s (first ++ second) = scan.run s second := by
  induction first with
  | nil => rfl
  | cons x first ih =>
      rw [List.cons_append, run_cons_quiet (h x List.mem_cons_self)]
      exact ih fun y hy => h y (List.mem_cons_of_mem x hy)

theorem state_of_quiet (h : ∀ x ∈ l, scan.Quiet s x) : scan.state s l = s := by
  induction l with
  | nil => rfl
  | cons x l ih =>
      rw [state_cons, h x List.mem_cons_self]
      exact ih fun y hy => h y (List.mem_cons_of_mem x hy)

/-- Elements that no state notices can be left out. -/
theorem run_filter {p : α → Bool} (h : ∀ s x, p x = false → scan.Quiet s x) (s : σ) (l : List α) :
    scan.run s (l.filter p) = scan.run s l := by
  induction l generalizing s with
  | nil => rfl
  | cons x l ih =>
      by_cases hx : p x = true
      · rw [List.filter_cons_of_pos hx, run_cons, run_cons, ih]
      · rw [List.filter_cons_of_neg hx, ih, run_cons_quiet (h s x (by simpa using hx))]

/-- Two lists that the scan reads alike may stand for one another after any beginning. -/
theorem run_append_congr {first second second' : List α}
    (h : scan.run (scan.state s first) second = scan.run (scan.state s first) second') :
    scan.run s (first ++ second) = scan.run s (first ++ second') := by
  rw [run_append, run_append, h]

theorem run_append_cancel [IsLeftCancelAdd M] {first second second' : List α}
    (h : scan.run s (first ++ second) = scan.run s (first ++ second')) :
    scan.run (scan.state s first) second = scan.run (scan.state s first) second' := by
  rw [run_append, run_append] at h
  exact add_left_cancel h

end Scan

end Chronicle.Library
