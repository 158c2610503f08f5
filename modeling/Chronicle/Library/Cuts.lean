import Mathlib.Data.List.Basic

/-!
# Spans cut from a list

A list is read from left to right, and spans are cut from it one after the other: each has a first
element, and a last one when it is finished. Only the last span can be unfinished.
-/

namespace Chronicle.Library.Cuts

variable {α : Type*}

/-- The spans that a reader cuts from the rest of a list, with the start of the span it is in. -/
inductive Cut : Option α → List α → List (α × Option α) → Prop where
  | done : Cut none [] []
  | unfinished (start : α) : Cut (some start) [] [(start, none)]
  | skip {current : Option α} {l : List α} {spans : List (α × Option α)} (x : α)
      (h : Cut current l spans) : Cut current (x :: l) spans
  | start {l : List α} {spans : List (α × Option α)} {x : α} (h : Cut (some x) l spans) :
      Cut none (x :: l) spans
  | stop {l : List α} {spans : List (α × Option α)} {x : α} (start : α) (h : Cut none l spans) :
      Cut (some start) (x :: l) ((start, some x) :: spans)

variable {current : Option α} {l : List α} {spans : List (α × Option α)} {span : α × Option α}

theorem Cut.start_mem (h : Cut current l spans) (hspan : span ∈ spans) :
    span.1 ∈ current ∨ span.1 ∈ l := by
  induction h with
  | done => exact absurd hspan List.not_mem_nil
  | unfinished start =>
      rw [List.mem_singleton.mp hspan]
      exact .inl rfl
  | skip x _ ih => exact (ih hspan).imp id (List.mem_cons_of_mem x)
  | @start l spans x _ ih =>
      -- the span that the element starts is the one underway later
      rcases ih hspan with hstart | hmem
      · rw [← Option.mem_some_iff.mp hstart]
        exact .inr List.mem_cons_self
      · exact .inr (List.mem_cons_of_mem x hmem)
  | @stop l spans x start _ ih =>
      rcases List.mem_cons.mp hspan with rfl | hspan
      · exact .inl rfl
      · rcases ih hspan with hnone | hmem
        · exact absurd hnone (Option.not_mem_none _)
        · exact .inr (List.mem_cons_of_mem x hmem)

section Ordered

variable {R : α → α → Prop}

/-- In an ordered list a span starts before it stops. -/
theorem Cut.start_stop (h : Cut current l spans) (hl : l.Pairwise R)
    (hcurrent : ∀ start ∈ current, ∀ x ∈ l, R start x) (hspan : span ∈ spans) {stop : α}
    (hstop : stop ∈ span.2) : R span.1 stop := by
  induction h with
  | done => exact absurd hspan List.not_mem_nil
  | unfinished start =>
      rw [List.mem_singleton.mp hspan] at hstop
      exact absurd hstop (Option.not_mem_none _)
  | skip x _ ih =>
      refine ih (List.pairwise_cons.mp hl).2 ?_ hspan
      intro start hstart y hy
      exact hcurrent start hstart y (List.mem_cons_of_mem x hy)
  | start _ ih =>
      obtain ⟨hfirst, hl⟩ := List.pairwise_cons.mp hl
      refine ih hl ?_ hspan
      intro start hstart y hy
      rw [← Option.mem_some_iff.mp hstart]
      exact hfirst y hy
  | stop start _ ih =>
      rcases List.mem_cons.mp hspan with rfl | hspan
      · exact hcurrent _ rfl _ (Option.mem_some_iff.mp hstop ▸ List.mem_cons_self)
      -- after a stop no span is underway, so the later ones have no start to compare
      · refine ih (List.pairwise_cons.mp hl).2 ?_ hspan
        intro start hstart
        exact absurd hstart (Option.not_mem_none _)

/-- In an ordered list a span stops before the next one starts. -/
theorem Cut.pairwise (h : Cut current l spans) (hl : l.Pairwise R) :
    spans.Pairwise fun first second => ∃ stop ∈ first.2, R stop second.1 := by
  induction h with
  | done => exact .nil
  | unfinished start => exact List.pairwise_singleton _ _
  | skip x _ ih => exact ih (List.pairwise_cons.mp hl).2
  | start _ ih => exact ih (List.pairwise_cons.mp hl).2
  | stop start h ih =>
      obtain ⟨hfirst, hl⟩ := List.pairwise_cons.mp hl
      refine List.pairwise_cons.mpr ⟨?_, ih hl⟩
      intro later hlater
      -- a later span starts behind the stop, since none is underway there
      rcases h.start_mem hlater with hnone | hmem
      · exact absurd hnone (Option.not_mem_none _)
      · exact ⟨_, rfl, hfirst _ hmem⟩

end Ordered

/-! ## The first start and the first stop -/

variable (opens closes : α → Prop)

/-- The spans of a list where each starts at the first element that opens after the last stop, and
stops at the first element that closes after its start. -/
inductive FirstSpans : List α → List (α × Option α) → Prop where
  | idle {l : List α} (hidle : ∀ x ∈ l, ¬opens x) : FirstSpans l []
  | unfinished {idle inside : List α} {start : α} (hidle : ∀ x ∈ idle, ¬opens x)
      (hstart : opens start) (hinside : ∀ x ∈ inside, ¬closes x) :
      FirstSpans (idle ++ start :: inside) [(start, none)]
  | finished {idle inside rest : List α} {start stop : α} {spans : List (α × Option α)}
      (hidle : ∀ x ∈ idle, ¬opens x) (hstart : opens start) (hinside : ∀ x ∈ inside, ¬closes x)
      (hstop : closes stop) (hrest : FirstSpans rest spans) :
      FirstSpans (idle ++ start :: inside ++ stop :: rest) ((start, some stop) :: spans)

variable {opens closes}

theorem Cut.skip_append (idle : List α) (h : Cut current l spans) :
    Cut current (idle ++ l) spans := by
  induction idle with
  | nil => exact h
  | cons x idle ih => exact .skip x ih

theorem FirstSpans.cut (h : FirstSpans opens closes l spans) : Cut none l spans := by
  induction h with
  | @idle l _ =>
      have hskip := Cut.skip_append l (Cut.done (α := α))
      rwa [List.append_nil] at hskip
  | @unfinished idle inside start _ _ _ =>
      have hskip := Cut.skip_append inside (.unfinished start)
      rw [List.append_nil] at hskip
      exact (Cut.start hskip).skip_append idle
  | @finished idle inside rest start stop spans _ _ _ _ _ ih =>
      rw [List.append_assoc, List.cons_append]
      exact (Cut.start ((Cut.stop start ih).skip_append inside)).skip_append idle

/-- An element that does not open may come before. -/
theorem FirstSpans.cons {x : α} (hx : ¬opens x) (h : FirstSpans opens closes l spans) :
    FirstSpans opens closes (x :: l) spans := by
  cases h with
  | idle hidle => exact .idle (List.forall_mem_cons.mpr ⟨hx, hidle⟩)
  | unfinished hidle hstart hinside =>
      rw [← List.cons_append]
      exact .unfinished (List.forall_mem_cons.mpr ⟨hx, hidle⟩) hstart hinside
  | finished hidle hstart hinside hstop hrest =>
      rw [← List.cons_append, ← List.cons_append]
      exact .finished (List.forall_mem_cons.mpr ⟨hx, hidle⟩) hstart hinside hstop hrest

end Chronicle.Library.Cuts
