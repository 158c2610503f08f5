import Mathlib.Data.List.TakeDrop

/-!
# Runs of linked neighbours

A list is cut into maximal runs whose neighbouring elements are linked. A loop with one open
summary computes the summaries of these runs. Dropping the elements of other owners before the
cut gives the same runs of one owner exactly when no element of another owner stands between two
linked elements of this one.
-/

namespace Chronicle.Library.LinkedRuns

variable {α β ρ : Type*}

/-- Put one element before the first run: into it if it is linked to its head. -/
def attach (link : α → α → Bool) (x : α) : List (List α) → List (List α)
  | (y :: run) :: later =>
      if link x y then (x :: y :: run) :: later else [x] :: (y :: run) :: later
  | runs => [x] :: runs

/-- The maximal runs of linked neighbours. -/
def linkedRuns (link : α → α → Bool) : List α → List (List α)
  | [] => []
  | x :: rest => attach link x (linkedRuns link rest)

section Shape

variable (link : α → α → Bool)

/-- The first run starts with the first element. -/
theorem linkedRuns_cons (x : α) (rest : List α) :
    ∃ run later, linkedRuns link (x :: rest) = (x :: run) :: later := by
  unfold linkedRuns attach
  split
  · split
    · exact ⟨_, _, rfl⟩
    · exact ⟨_, _, rfl⟩
  · exact ⟨_, _, rfl⟩

/-- No run is empty. -/
theorem nil_not_mem_linkedRuns (l : List α) : [] ∉ linkedRuns link l := by
  induction l with
  | nil => simp [linkedRuns]
  | cons x rest ih =>
      unfold linkedRuns attach
      split
      · next heq =>
          rw [heq] at ih
          split <;> simp_all
      · simpa using ih

/-- A further element joins the first run or starts its own. -/
theorem length_attach_linkedRuns (x y : α) (rest : List α) :
    (attach link x (linkedRuns link (y :: rest))).length =
      (linkedRuns link (y :: rest)).length + if link x y then 0 else 1 := by
  obtain ⟨run, later, hruns⟩ := linkedRuns_cons link y rest
  rw [hruns, attach]
  split <;> simp

/-- An element that is not linked to the first one starts its own run. -/
theorem attach_of_not_linked {x : α} {l : List α} (h : ∀ next ∈ l.head?, link x next = false) :
    attach link x (linkedRuns link l) = [x] :: linkedRuns link l := by
  cases l with
  | nil => rfl
  | cons y rest =>
      obtain ⟨run, later, hruns⟩ := linkedRuns_cons link y rest
      have hnot := h y (by simp)
      rw [hruns, attach]
      simp [hnot]

theorem linkedRuns_cons_eq (x : α) (l : List α) :
    linkedRuns link (x :: l) = attach link x (linkedRuns link l) := rfl

/-- What a further element does to the first run. -/
theorem linkedRuns_cons_cons {x y : α} {rest run : List α} {later : List (List α)}
    (h : linkedRuns link (y :: rest) = (y :: run) :: later) :
    linkedRuns link (x :: y :: rest) =
      if link x y then (x :: y :: run) :: later else [x] :: (y :: run) :: later := by
  conv_lhs => unfold linkedRuns
  rw [h, attach]

/-- Renaming the elements renames the runs, when it keeps the links. -/
theorem linkedRuns_map {link' : β → β → Bool} {f : α → β} {l : List α}
    (h : ∀ x ∈ l, ∀ y ∈ l, link' (f x) (f y) = link x y) :
    linkedRuns link' (l.map f) = (linkedRuns link l).map (List.map f) := by
  induction l with
  | nil => rfl
  | cons x rest ih =>
      have hrest := ih fun y hy z hz => h y (by simp [hy]) z (by simp [hz])
      cases rest with
      | nil => rfl
      | cons y rest =>
          obtain ⟨run, later, hruns⟩ := linkedRuns_cons link y rest
          have hmapped : linkedRuns link' (f y :: rest.map f) =
              (f y :: run.map f) :: later.map (List.map f) := by
            rw [← List.map_cons, hrest, hruns]
            rfl
          have hlink := h x (by simp) y (by simp)
          rw [List.map_cons, List.map_cons, linkedRuns_cons_cons link' hmapped,
            linkedRuns_cons_cons link hruns, hlink]
          split <;> rfl

end Shape

section Chains

variable (link : α → α → Bool)

/-- A relation holds between the neighbours of every run if it holds between all linked ones. -/
theorem isChain_linkedRuns (S : α → α → Prop) (l : List α) :
    (∀ run ∈ linkedRuns link l, run.IsChain S) ↔
      l.IsChain fun x y => link x y = true → S x y := by
  induction l with
  | nil => simp [linkedRuns]
  | cons x rest ih =>
      cases rest with
      | nil => simp [linkedRuns, attach]
      | cons y rest =>
          obtain ⟨run, later, hruns⟩ := linkedRuns_cons link y rest
          rw [List.isChain_cons_cons, ← ih, hruns, linkedRuns_cons_cons link hruns]
          cases hlink : link x y with
          | true => simp [List.isChain_cons_cons, and_assoc]
          | false => simp

/-- Neighbours in an ordered list are the elements with none between them. -/
theorem isChain_iff_of_pairwise {lt : α → α → Prop} {R : α → α → Prop}
    (hirrefl : ∀ x, ¬ lt x x) (htrans : ∀ x y z, lt x y → lt y z → lt x z) {l : List α}
    (hl : l.Pairwise lt) :
    l.IsChain R ↔ ∀ x ∈ l, ∀ y ∈ l, lt x y → (∀ z ∈ l, ¬ (lt x z ∧ lt z y)) → R x y := by
  induction l with
  | nil => simp
  | cons first rest ih =>
      obtain ⟨hfirst, hrest⟩ := List.pairwise_cons.mp hl
      cases rest with
      | nil => simpa using fun h => absurd h (hirrefl first)
      | cons next rest =>
          have hnext := (List.pairwise_cons.mp hrest).1
          rw [List.isChain_cons_cons, ih hrest]
          constructor
          · rintro ⟨hhead, hlater⟩ x hx y hy hlt hnone
            -- nothing comes before the first element
            have hlater' : y ∈ next :: rest := by
              rcases List.mem_cons.mp hy with rfl | hy
              · rcases List.mem_cons.mp hx with rfl | hx
                · exact absurd hlt (hirrefl _)
                · exact absurd (htrans _ _ _ hlt (hfirst x hx)) (hirrefl x)
              · exact hy
            rcases List.mem_cons.mp hx with rfl | hx
            · rcases List.mem_cons.mp hlater' with rfl | hy
              · exact hhead
              · exact absurd ⟨hfirst next List.mem_cons_self, hnext y hy⟩ (hnone next (by simp))
            · exact hlater x hx y hlater' hlt fun z hz => hnone z (List.mem_cons_of_mem _ hz)
          · refine fun h => ⟨?_, fun x hx y hy hlt hnone => ?_⟩
            · refine h first List.mem_cons_self next (by simp) (hfirst next List.mem_cons_self) ?_
              rintro z hz ⟨hafter, hbefore⟩
              rcases List.mem_cons.mp hz with rfl | hz
              · exact hirrefl _ hafter
              rcases List.mem_cons.mp hz with rfl | hz
              · exact hirrefl _ hbefore
              · exact hirrefl z (htrans _ _ _ hbefore (hnext z hz))
            · refine h x (List.mem_cons_of_mem _ hx) y (List.mem_cons_of_mem _ hy) hlt ?_
              rintro z hz ⟨hafter, hbefore⟩
              rcases List.mem_cons.mp hz with rfl | hz
              · exact hirrefl z (htrans _ _ _ (hfirst x hx) hafter)
              · exact hnone z hz ⟨hafter, hbefore⟩

end Chains

/-! ## A loop with one open summary -/

section Collect

variable (start : α → ρ) (extend : ρ → α → ρ) (joins : ρ → α → Bool)

/-- One pass: extend the open summary, or finish it and open a new one. -/
def collectStep (st : List ρ × Option ρ) (x : α) : List ρ × Option ρ :=
  match st.2 with
  | some current =>
      if joins current x then (st.1, some (extend current x))
      else (st.1 ++ [current], some (start x))
  | none => (st.1, some (start x))

/-- The summary of one run. -/
def summary : List α → Option ρ
  | [] => none
  | x :: run => some (run.foldl extend (start x))

/-- Every run has a summary. -/
theorem length_filterMap_summary {runs : List (List α)} (h : [] ∉ runs) :
    (runs.filterMap (summary start extend)).length = runs.length := by
  induction runs with
  | nil => rfl
  | cons run later ih =>
      rw [List.mem_cons, not_or] at h
      cases run with
      | nil => exact absurd rfl h.1
      | cons x run => simp [summary, ih h.2]

variable {start extend joins} {link : α → α → Bool} {endsAt : ρ → α → Prop}

/-- From an open summary that ends at `x`, the loop continues the run of `x`. -/
theorem foldl_collectStep_open (hstart : ∀ x, endsAt (start x) x)
    (hextend : ∀ r x y, endsAt r x → link x y = true → endsAt (extend r y) y)
    (hjoins : ∀ r x y, endsAt r x → joins r y = link x y) (done : List ρ) {l : List α}
    {current : ρ} {x : α} (hx : endsAt current x) {run : List α} {later : List (List α)}
    (hruns : linkedRuns link (x :: l) = (x :: run) :: later) :
    let final := l.foldl (collectStep start extend joins) (done, some current)
    final.1 ++ final.2.toList =
      done ++ run.foldl extend current :: later.filterMap (summary start extend) := by
  induction l generalizing done current x run later with
  | nil =>
      cases hruns
      simp [linkedRuns]
  | cons y rest ih =>
      obtain ⟨run', later', hrest⟩ := linkedRuns_cons link y rest
      rw [linkedRuns_cons_cons link hrest] at hruns
      simp only [List.foldl_cons]
      by_cases hlink : link x y = true
      · rw [if_pos hlink] at hruns
        cases hruns
        have hstep : collectStep start extend joins (done, some current) y =
            (done, some (extend current y)) := by
          simp [collectStep, hjoins current x y hx, hlink]
        rw [hstep]
        exact ih done (hextend current x y hx hlink) hrest
      · rw [if_neg hlink] at hruns
        cases hruns
        have hstep : collectStep start extend joins (done, some current) y =
            (done ++ [current], some (start y)) := by
          simp [collectStep, hjoins current x y hx, hlink]
        rw [hstep, ih (done ++ [current]) (hstart y) hrest]
        simp [summary]

variable (start extend joins link endsAt)

/-- The loop computes the summaries of the runs. -/
theorem foldl_collectStep (hstart : ∀ x, endsAt (start x) x)
    (hextend : ∀ r x y, endsAt r x → link x y = true → endsAt (extend r y) y)
    (hjoins : ∀ r x y, endsAt r x → joins r y = link x y) (l : List α) :
    let final := l.foldl (collectStep start extend joins) ([], none)
    final.1 ++ final.2.toList = (linkedRuns link l).filterMap (summary start extend) := by
  cases l with
  | nil => rfl
  | cons x rest =>
      obtain ⟨run, later, hruns⟩ := linkedRuns_cons link x rest
      have hopen := foldl_collectStep_open hstart hextend hjoins [] (hstart x) hruns
      rw [hruns]
      simpa [summary, collectStep] using hopen

end Collect

/-! ## The runs of one owner -/

section Owner

variable (link : α → α → Bool) (mine : α → Bool)

/-- The runs that start with an element of this owner. -/
def ownRuns (runs : List (List α)) : List (List α) := runs.filter fun run => run.head?.any mine

/-- No element of another owner stands between two linked elements of this one. -/
def Uninterrupted : List α → Prop
  | [] => True
  | x :: rest => (mine x = true → rest.head?.any mine = false →
      ∀ next ∈ (rest.filter mine).head?, link x next = false) ∧ Uninterrupted rest

variable {link mine}

/-- Another owner's element leaves the runs of this owner as they are. -/
theorem ownRuns_cons_of_foreign (hlink : ∀ x y, link x y = true → mine x = mine y) {x : α}
    (hx : mine x = false) (rest : List α) :
    ownRuns mine (linkedRuns link (x :: rest)) = ownRuns mine (linkedRuns link rest) := by
  cases rest with
  | nil => simp [linkedRuns, attach, ownRuns, hx]
  | cons y rest =>
      obtain ⟨run, later, hruns⟩ := linkedRuns_cons link y rest
      rw [linkedRuns_cons_cons link hruns, hruns]
      by_cases hjoin : link x y = true
      · have hy : mine y = false := (hlink x y hjoin).symm.trans hx
        simp [hjoin, ownRuns, hx, hy]
      · simp [hjoin, ownRuns, hx]

/-- An own element before an own one is put before the owner's first run. -/
theorem ownRuns_cons_before_own {x y : α} (hx : mine x = true) (hy : mine y = true)
    (rest : List α) :
    ownRuns mine (linkedRuns link (x :: y :: rest)) =
      attach link x (ownRuns mine (linkedRuns link (y :: rest))) := by
  obtain ⟨run, later, hruns⟩ := linkedRuns_cons link y rest
  rw [linkedRuns_cons_cons link hruns, hruns]
  by_cases hjoin : link x y = true <;> simp [hjoin, ownRuns, hx, hy, attach]

/-- An own element before another owner's starts a run of the owner. -/
theorem ownRuns_cons_before_foreign (hlink : ∀ x y, link x y = true → mine x = mine y) {x : α}
    (hx : mine x = true) {rest : List α} (hhead : rest.head?.any mine = false) :
    ownRuns mine (linkedRuns link (x :: rest)) = [x] :: ownRuns mine (linkedRuns link rest) := by
  have hnot : ∀ next ∈ rest.head?, link x next = false := by
    intro next hnext
    cases hjoin : link x next with
    | false => rfl
    | true =>
        have hown : mine next = true := (hlink x next hjoin).symm.trans hx
        rw [Option.mem_def.mp hnext] at hhead
        simp [hown] at hhead
  rw [linkedRuns, attach_of_not_linked link hnot]
  simp [ownRuns, hx]

/-- Without interruptions the runs of the owner are the runs of its own elements. -/
theorem ownRuns_eq_of_uninterrupted (hlink : ∀ x y, link x y = true → mine x = mine y)
    {l : List α} (h : Uninterrupted link mine l) :
    ownRuns mine (linkedRuns link l) = linkedRuns link (l.filter mine) := by
  induction l with
  | nil => rfl
  | cons x rest ih =>
      obtain ⟨hhead, hrest⟩ := h
      have hih := ih hrest
      cases hx : mine x with
      | false => rw [ownRuns_cons_of_foreign hlink hx, hih, List.filter_cons_of_neg (by simp [hx])]
      | true =>
          rw [List.filter_cons_of_pos hx, linkedRuns_cons_eq link x (rest.filter mine)]
          cases hown : rest.head?.any mine with
          | false =>
              rw [ownRuns_cons_before_foreign hlink hx hown, hih,
                attach_of_not_linked link (hhead hx hown)]
          | true =>
              cases rest with
              | nil => simp at hown
              | cons y rest => rw [ownRuns_cons_before_own hx (by simpa using hown), hih]

/-- The runs of the owner are never fewer than the runs of its own elements, and more after an
interruption. -/
theorem length_linkedRuns_filter (hlink : ∀ x y, link x y = true → mine x = mine y)
    (l : List α) :
    (linkedRuns link (l.filter mine)).length ≤ (ownRuns mine (linkedRuns link l)).length ∧
      (¬ Uninterrupted link mine l →
        (linkedRuns link (l.filter mine)).length <
          (ownRuns mine (linkedRuns link l)).length) := by
  induction l with
  | nil => simp [linkedRuns, Uninterrupted]
  | cons x rest ih =>
      cases hx : mine x with
      | false =>
          rw [ownRuns_cons_of_foreign hlink hx, List.filter_cons_of_neg (by simp [hx])]
          refine ⟨ih.1, fun hnot => ih.2 fun hrest => hnot ⟨by simp [hx], hrest⟩⟩
      | true =>
          rw [List.filter_cons_of_pos hx, linkedRuns_cons_eq link x (rest.filter mine)]
          cases hown : rest.head?.any mine with
          | true =>
              -- An own neighbour: both sides decide by the same link.
              cases rest with
              | nil => simp at hown
              | cons y rest =>
                  have hy : mine y = true := by simpa using hown
                  obtain ⟨run, later, hruns⟩ := linkedRuns_cons link y rest
                  rw [ownRuns_cons_before_own hx hy, List.filter_cons_of_pos hy,
                    length_attach_linkedRuns]
                  have hfull : (attach link x
                      (ownRuns mine (linkedRuns link (y :: rest)))).length =
                        (ownRuns mine (linkedRuns link (y :: rest))).length +
                          if link x y then 0 else 1 := by
                    rw [hruns]
                    by_cases hjoin : link x y = true <;> simp [ownRuns, hy, attach, hjoin]
                  rw [List.filter_cons_of_pos hy] at ih
                  rw [hfull]
                  refine ⟨Nat.add_le_add_right ih.1 _, fun hnot => ?_⟩
                  refine Nat.add_lt_add_right (ih.2 fun hrest => hnot ⟨?_, hrest⟩) _
                  simp [hy]
          | false =>
              rw [ownRuns_cons_before_foreign hlink hx hown, List.length_cons]
              by_cases hnext : ∀ next ∈ (rest.filter mine).head?, link x next = false
              · rw [attach_of_not_linked link hnext, List.length_cons]
                refine ⟨Nat.succ_le_succ ih.1, fun hnot => Nat.succ_lt_succ (ih.2 fun hrest => ?_)⟩
                exact hnot ⟨fun _ _ => hnext, hrest⟩
              · -- The interruption: alone, `x` joins the run that follows.
                push Not at hnext
                obtain ⟨next, hmem, hjoin⟩ := hnext
                cases hfilter : rest.filter mine with
                | nil => simp [hfilter] at hmem
                | cons first others =>
                    rw [hfilter] at hmem ih
                    obtain rfl : first = next := by simpa using hmem
                    rw [length_attach_linkedRuns]
                    have hle := ih.1
                    simp only [ne_eq, Bool.not_eq_false] at hjoin
                    simp only [hjoin, if_true]
                    omega

/-- The runs of the owner are as many as the runs of its own elements only without
interruptions. -/
theorem uninterrupted_of_length_eq (hlink : ∀ x y, link x y = true → mine x = mine y)
    {l : List α} (h : (ownRuns mine (linkedRuns link l)).length =
      (linkedRuns link (l.filter mine)).length) : Uninterrupted link mine l := by
  by_contra hnot
  have hlt := (length_linkedRuns_filter hlink l).2 hnot
  omega

/-- An element of another owner stands between two linked own elements of an ordered list, and no
own element does. -/
def Interrupts (lt : α → α → Prop) (link : α → α → Bool) (mine : α → Bool) (l : List α)
    (x between next : α) : Prop :=
  (x ∈ l ∧ between ∈ l ∧ next ∈ l) ∧ (lt x between ∧ lt between next) ∧
    (mine x = true ∧ mine between = false ∧ mine next = true) ∧ link x next = true ∧
    ∀ m ∈ l, mine m = true → ¬ (lt x m ∧ lt m next)

section Ordered

variable {lt : α → α → Prop} (hirrefl : ∀ x, ¬ lt x x)
variable (htrans : ∀ x y z, lt x y → lt y z → lt x z)

include hirrefl htrans

/-- The least own element of a strictly ordered list. -/
theorem head_filter_lt {next : α} {l : List α} (hl : l.Pairwise lt)
    (hnext : next ∈ (l.filter mine).head?) {m : α} (hm : m ∈ l) (hown : mine m = true) :
    ¬ lt m next := by
  have hfiltered := hl.filter mine
  have hmem : m ∈ l.filter mine := List.mem_filter.mpr ⟨hm, hown⟩
  cases hfilter : l.filter mine with
  | nil => simp [hfilter] at hnext
  | cons first rest =>
      rw [hfilter] at hnext hmem hfiltered
      obtain rfl : first = next := by simpa using hnext
      rcases List.mem_cons.mp hmem with rfl | hmem
      · exact hirrefl m
      · exact fun hlt => hirrefl m (htrans _ _ _ hlt ((List.pairwise_cons.mp hfiltered).1 m hmem))

/-- One more element in front keeps the interruptions further on. -/
theorem interrupts_cons {first : α} {l : List α} (hl : (first :: l).Pairwise lt)
    {x between next : α} (hx : x ∈ l) :
    Interrupts lt link mine (first :: l) x between next ↔
      Interrupts lt link mine l x between next := by
  have hfirst := (List.pairwise_cons.mp hl).1
  have hnot : ∀ y, lt x y → y ≠ first := by
    rintro y hlt rfl
    exact hirrefl x (htrans _ _ _ hlt (hfirst x hx))
  constructor
  · rintro ⟨⟨-, hbetween, hnext⟩, ⟨hlow, hhigh⟩, hown, hjoin, hleast⟩
    refine ⟨⟨hx, (List.mem_cons.mp hbetween).resolve_left (hnot _ hlow),
      (List.mem_cons.mp hnext).resolve_left (hnot _ (htrans _ _ _ hlow hhigh))⟩,
      ⟨hlow, hhigh⟩, hown, hjoin, fun m hm => hleast m (List.mem_cons_of_mem _ hm)⟩
  · rintro ⟨⟨-, hbetween, hnext⟩, hbounds, hown, hjoin, hleast⟩
    refine ⟨⟨List.mem_cons_of_mem _ hx, List.mem_cons_of_mem _ hbetween,
      List.mem_cons_of_mem _ hnext⟩, hbounds, hown, hjoin, fun m hm hm' hlt => ?_⟩
    rcases List.mem_cons.mp hm with rfl | hm
    · exact hnot m hlt.1 rfl
    · exact hleast m hm hm' hlt

/-- The first element of an ordered list is interrupted when its next own element is linked to it
and is not its neighbour. -/
theorem interrupts_head {first : α} {l : List α} (hl : (first :: l).Pairwise lt) :
    (∃ between next, Interrupts lt link mine (first :: l) first between next) ↔
      mine first = true ∧ l.head?.any mine = false ∧
        ∃ next ∈ (l.filter mine).head?, link first next = true := by
  rw [List.pairwise_cons] at hl
  constructor
  · rintro ⟨between, next, ⟨-, hbetween, hnext⟩, ⟨hlow, hhigh⟩, ⟨hown, hforeign, hmine⟩, hjoin,
      hleast⟩
    have hbetween' : between ∈ l := (List.mem_cons.mp hbetween).resolve_left fun heq =>
      hirrefl first (heq ▸ hlow)
    have hnext' : next ∈ l := (List.mem_cons.mp hnext).resolve_left fun heq =>
      hirrefl first (htrans _ _ _ hlow (heq ▸ hhigh))
    have hleast' : ∀ m ∈ l, mine m = true → ¬ lt m next := fun m hm hm' hlt =>
      hleast m (List.mem_cons_of_mem _ hm) hm' ⟨hl.1 m hm, hlt⟩
    refine ⟨hown, ?_, next, ?_, hjoin⟩
    · cases l with
      | nil => simp at hnext'
      | cons y rest =>
          -- An own head would be `next`, and nothing is before the head.
          cases hy : mine y with
          | false => simp [hy]
          | true =>
              have hrest := (List.pairwise_cons.mp hl.2).1
              rcases List.mem_cons.mp hnext' with rfl | hnext'
              · rcases List.mem_cons.mp hbetween' with rfl | hbetween'
                · exact absurd hhigh (hirrefl _)
                · exact absurd (htrans _ _ _ hhigh (hrest _ hbetween')) (hirrefl _)
              · exact absurd (hrest next hnext') (hleast' y (by simp) hy)
    · have hmem : next ∈ l.filter mine := List.mem_filter.mpr ⟨hnext', hmine⟩
      have hfiltered := hl.2.filter mine
      cases hfilter : l.filter mine with
      | nil => simp [hfilter] at hmem
      | cons u others =>
          rw [hfilter] at hmem hfiltered
          rcases List.mem_cons.mp hmem with rfl | hmem
          · simp
          · have hu : u ∈ l ∧ mine u = true := by
              rw [← List.mem_filter, hfilter]
              simp
            exact absurd ((List.pairwise_cons.mp hfiltered).1 next hmem) (hleast' u hu.1 hu.2)
  · rintro ⟨hown, hhead, next, hnext, hjoin⟩
    have hmem : next ∈ l ∧ mine next = true := List.mem_filter.mp (List.mem_of_head? hnext)
    cases l with
    | nil => simp at hnext
    | cons y rest =>
        have hy : mine y = false := by simpa using hhead
        have hne : next ≠ y := fun heq => by simp [← heq, hmem.2] at hy
        have hnext' : next ∈ rest := (List.mem_cons.mp hmem.1).resolve_left hne
        refine ⟨y, next, ⟨by simp, by simp, List.mem_cons_of_mem _ hmem.1⟩,
          ⟨hl.1 y (by simp), (List.pairwise_cons.mp hl.2).1 next hnext'⟩, ⟨hown, hy, hmem.2⟩,
          hjoin, fun m hm hm' hlt => ?_⟩
        rcases List.mem_cons.mp hm with rfl | hm
        · exact hirrefl m hlt.1
        · exact head_filter_lt hirrefl htrans hl.2 hnext hm hm' hlt.2

/-- In an ordered list, being uninterrupted means that nothing interrupts. -/
theorem uninterrupted_iff {l : List α} (hl : l.Pairwise lt) :
    Uninterrupted link mine l ↔ ¬ ∃ x between next, Interrupts lt link mine l x between next := by
  induction l with
  | nil => simp [Uninterrupted, Interrupts]
  | cons first rest ih =>
      rw [Uninterrupted, ih (List.pairwise_cons.mp hl).2]
      have hhead : (∃ between next, Interrupts lt link mine (first :: rest) first between next) ↔
          _ := interrupts_head hirrefl htrans hl
      constructor
      · rintro ⟨hfirst, hrest⟩ ⟨x, between, next, h⟩
        rcases List.mem_cons.mp h.1.1 with rfl | hx
        · obtain ⟨hown, hforeign, next', hnext', hjoin⟩ := hhead.mp ⟨between, next, h⟩
          simp [hfirst hown hforeign next' hnext'] at hjoin
        · exact hrest ⟨x, between, next, (interrupts_cons hirrefl htrans hl hx).mp h⟩
      · intro hnone
        refine ⟨fun hown hforeign next hnext => ?_, ?_⟩
        · cases hjoin : link first next with
          | false => rfl
          | true =>
              obtain ⟨between, next', h⟩ := hhead.mpr ⟨hown, hforeign, next, hnext, hjoin⟩
              exact absurd ⟨first, between, next', h⟩ hnone
        · rintro ⟨x, between, next, h⟩
          exact hnone ⟨x, between, next, (interrupts_cons hirrefl htrans hl h.1.1).mpr h⟩

end Ordered

end Owner

end Chronicle.Library.LinkedRuns
