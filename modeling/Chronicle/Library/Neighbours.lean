import Mathlib.Data.List.Basic

/-!
# Elements between their neighbours

A list as a sequence of elements, each with the element before it and the element after it. The
list itself stands between two further neighbours.
-/

namespace Chronicle.Library.Neighbours

variable {α β : Type*}

/-- Every element with its neighbours. -/
def contexts : Option α → List α → Option α → List (Option α × α × Option α)
  | _, [], _ => []
  | previous, x :: l, next => (previous, x, l.head?.or next) :: contexts (some x) l next

variable {previous next : Option α} {l first last : List α} {x : α}

theorem getLast?_cons_or (x : α) (l : List α) (previous : Option α) :
    (x :: l).getLast?.or previous = l.getLast?.or (some x) := by
  rw [List.getLast?_cons]
  cases l.getLast? <;> rfl

theorem contexts_append (previous : Option α) (first second : List α) (next : Option α) :
    contexts previous (first ++ second) next =
      contexts previous first (second.head?.or next) ++
        contexts (first.getLast?.or previous) second next := by
  induction first generalizing previous with
  | nil => rfl
  | cons x first ih =>
      rw [List.cons_append, contexts, contexts, ih, getLast?_cons_or, List.cons_append,
        List.head?_append, Option.or_assoc]

@[simp]
theorem map_contexts (previous : Option α) (l : List α) (next : Option α) :
    (contexts previous l next).map (fun context => context.2.1) = l := by
  induction l generalizing previous with
  | nil => rfl
  | cons x l ih => rw [contexts, List.map_cons, ih]

/-- An element of a list with what stands beside it. -/
theorem mem_contexts_append_cons (previous : Option α) (first : List α) (x : α) (last : List α)
    (next : Option α) :
    (first.getLast?.or previous, x, last.head?.or next) ∈
      contexts previous (first ++ x :: last) next := by
  rw [contexts_append]
  exact List.mem_append_right _ List.mem_cons_self

theorem exists_split_of_mem_contexts {context : Option α × α × Option α}
    (h : context ∈ contexts previous l next) :
    ∃ first x last, l = first ++ x :: last ∧
      context = (first.getLast?.or previous, x, last.head?.or next) := by
  induction l generalizing previous with
  | nil => exact absurd h List.not_mem_nil
  | cons y l ih =>
      rcases List.mem_cons.mp h with rfl | h
      · exact ⟨[], y, l, rfl, rfl⟩
      · obtain ⟨first, x, last, rfl, rfl⟩ := ih h
        exact ⟨y :: first, x, last, rfl, by rw [getLast?_cons_or]⟩

/-- Two neighbours, each with the other beside it. -/
theorem contexts_append_cons_cons (previous : Option α) (first : List α) (x y : α) (last : List α)
    (next : Option α) :
    contexts previous (first ++ x :: y :: last) next =
      contexts previous first (some x) ++ (first.getLast?.or previous, x, some y) ::
        (some x, y, last.head?.or next) :: contexts (some y) last next := by
  rw [contexts_append]
  rfl

theorem contexts_map (f : α → β) (previous : Option α) (l : List α) (next : Option α) :
    contexts (previous.map f) (l.map f) (next.map f) =
      (contexts previous l next).map fun context =>
        (context.1.map f, f context.2.1, context.2.2.map f) := by
  induction l generalizing previous with
  | nil => rfl
  | cons x l ih =>
      have hnext : (l.map f).head?.or (next.map f) = (l.head?.or next).map f := by
        rw [List.head?_map]
        cases l.head? <;> rfl
      rw [List.map_cons, contexts, contexts, List.map_cons, hnext]
      exact congrArg _ (ih (some x))

end Chronicle.Library.Neighbours
