import Mathlib.Data.List.Pairwise
import Mathlib.Order.Basic
import Mathlib.Tactic.Linarith

/-!
# Short runs between bounds

Elements stand at whole seconds, some of them on and some off. A run of off elements is bridged when
it is short, an on element stands at either side of it, and no second is missing between the two.
-/

namespace Chronicle.Library.ShortRuns

variable {α : Type*} (second : α → ℤ) (on off : α → Bool) (limit : Nat)

/-- Each element stands one second after the one before it. -/
def consecutive : List α → Bool
  | a :: b :: rest => decide (second a + 1 = second b) && consecutive (b :: rest)
  | _ => true

/-- The elements that are bridged when a run ends: the run when it is bounded and short. -/
def closeRun (bound : Option α) (run : List α) (x : α) : List α :=
  match bound with
  | none => []
  | some b =>
      if on b && on x && decide (run.length ≤ limit) && consecutive second (b :: run ++ [x]) then run
      else []

/-- The bridged elements, given the element before the run and the run so far. -/
def bridged (bound : Option α) (run : List α) : List α → List α
  | [] => []
  | x :: l =>
      if off x then bridged bound (run ++ [x]) l
      else closeRun second on limit bound run x ++ bridged (some x) [] l

/-- The element is off, between two on elements that are near, and every second between them is there
and off. -/
def Bridged (all : List α) (x : α) : Prop :=
  off x ∧ ∃ a ∈ all, ∃ b ∈ all, on a ∧ on b ∧ second a < second x ∧ second x < second b ∧
    second b - second a ≤ limit + 1 ∧
    ∀ s, second a < s → s < second b → ∃ r ∈ all, second r = s ∧ off r

/-- The elements stand in strictly increasing order. -/
def Increasing (l : List α) : Prop := l.Pairwise fun a b => second a < second b

variable {second on off limit} {bound : Option α} {run l : List α} {a b x : α}

/-! ## Filled intervals -/

/-- Seconds that fill the interval between two others are consecutive. -/
theorem consecutive_of_filled (hsorted : Increasing second (a :: run ++ [b]))
    (hfilled : ∀ s, second a < s → s < second b → ∃ r ∈ run, second r = s) :
    consecutive second (a :: run ++ [b]) ∧ second b - second a = run.length + 1 := by
  induction run generalizing a with
  | nil =>
      have hlt : second a < second b := List.rel_of_pairwise_cons hsorted (List.mem_singleton_self b)
      have hnext : second a + 1 = second b := by
        by_contra hne
        obtain ⟨r, hr, -⟩ := hfilled (second a + 1) (by omega) (by omega)
        exact absurd hr List.not_mem_nil
      refine ⟨by simp [consecutive, hnext], ?_⟩
      rw [List.length_nil]
      omega
  | cons y run ih =>
      obtain ⟨hfirst, hrest⟩ := List.pairwise_cons.mp hsorted
      have hy : second a < second y := hfirst y List.mem_cons_self
      have hyb : second y < second b :=
        List.rel_of_pairwise_cons hrest (List.mem_append_right _ (List.mem_singleton_self b))
      have hnext : second a + 1 = second y := by
        by_contra hne
        obtain ⟨r, hr, hsecond⟩ := hfilled (second a + 1) (by omega) (by omega)
        obtain rfl | hr := List.mem_cons.mp hr
        · exact hne hsecond.symm
        · have hlater : second y < second r :=
            List.rel_of_pairwise_cons hrest (List.mem_append_left _ hr)
          omega
      obtain ⟨hconsecutive, hlength⟩ := ih hrest fun s hlower hupper => by
        obtain ⟨r, hr, hsecond⟩ := hfilled s (by omega) hupper
        obtain rfl | hr := List.mem_cons.mp hr
        · omega
        · exact ⟨r, hr, hsecond⟩
      constructor
      · rw [List.cons_append, List.cons_append, consecutive, Bool.and_eq_true, decide_eq_true_eq]
        exact ⟨hnext, hconsecutive⟩
      · rw [List.length_cons]
        push_cast
        omega

/-- Consecutive seconds fill the interval between the first and the last. -/
theorem filled_of_consecutive (h : consecutive second (a :: run ++ [b])) :
    second b - second a = run.length + 1 ∧
      ∀ s, second a < s → s < second b → ∃ r ∈ run, second r = s := by
  induction run generalizing a with
  | nil =>
      simp only [List.cons_append, List.nil_append, consecutive, Bool.and_true,
        decide_eq_true_eq] at h
      refine ⟨by rw [List.length_nil]; omega, fun s hlower hupper => ?_⟩
      omega
  | cons y run ih =>
      rw [List.cons_append, List.cons_append, consecutive, Bool.and_eq_true, decide_eq_true_eq] at h
      obtain ⟨hlength, hfilled⟩ := ih h.2
      constructor
      · rw [List.length_cons]
        push_cast
        omega
      · intro s hlower hupper
        by_cases hs : s = second y
        · exact ⟨y, List.mem_cons_self, hs.symm⟩
        · obtain ⟨r, hr, hsecond⟩ := hfilled s (by omega) hupper
          exact ⟨r, List.mem_cons_of_mem y hr, hsecond⟩

/-! ## The walk -/

theorem mem_of_mem_closeRun (h : x ∈ closeRun second on limit bound run b) : x ∈ run := by
  cases bound with
  | none => exact absurd h List.not_mem_nil
  | some b =>
      rw [closeRun] at h
      split at h
      · exact h
      · exact absurd h List.not_mem_nil

/-- Only elements that the walk met are bridged. -/
theorem mem_of_mem_bridged (h : x ∈ bridged second on off limit bound run l) : x ∈ run ++ l := by
  induction l generalizing bound run with
  | nil => exact absurd h List.not_mem_nil
  | cons y l ih =>
      rw [bridged] at h
      split at h
      · have hmem := ih h
        rw [List.append_assoc] at hmem
        exact hmem
      · obtain h | h := List.mem_append.mp h
        · exact List.mem_append_left _ (mem_of_mem_closeRun h)
        · exact List.mem_append_right _ (List.mem_cons_of_mem y (ih h))

theorem Increasing.eq_of_second_eq (h : Increasing second l) (ha : a ∈ l) (hb : b ∈ l)
    (heq : second a = second b) : a = b := by
  induction l with
  | nil => exact absurd ha List.not_mem_nil
  | cons x l ih =>
      obtain ⟨hfirst, hrest⟩ := List.pairwise_cons.mp h
      obtain rfl | hatail := List.mem_cons.mp ha
      · obtain rfl | hbtail := List.mem_cons.mp hb
        · rfl
        · exact absurd heq (hfirst b hbtail).ne
      · obtain rfl | hbtail := List.mem_cons.mp hb
        · exact absurd heq.symm (hfirst a hatail).ne
        · exact ih hrest hatail hbtail

/-- The walk has met the bound and the run, and is about to meet the rest. -/
structure Underway (second : α → ℤ) (off : α → Bool) (bound : Option α) (run l : List α) : Prop where
  increasing : Increasing second (bound.toList ++ run ++ l)
  bound : ∀ b ∈ bound, off b = false
  run : ∀ r ∈ run, off r = true

theorem Underway.second_lt (h : Underway second off bound run (b :: l)) (hx : x ∈ run)
    (ha : a ∈ b :: l) : second x < second a :=
  (List.pairwise_append.mp h.increasing).2.2 x (List.mem_append_right _ hx) a ha

/-- A run that ends is bridged as the seconds say. -/
theorem mem_closeRun_iff (hexclusive : ∀ r, on r = true → off r = false)
    (h : Underway second off bound run (b :: l)) (hb : off b = false) (hx : x ∈ run) :
    x ∈ closeRun second on limit bound run b ↔
      Bridged second on off limit (bound.toList ++ run ++ b :: l) x := by
  constructor
  · intro hclosed
    cases bound with
    | none => exact absurd hclosed List.not_mem_nil
    | some a =>
        rw [closeRun] at hclosed
        split at hclosed
        · next hconditions =>
            simp only [Bool.and_eq_true, decide_eq_true_eq] at hconditions
            obtain ⟨⟨⟨ha, hb⟩, hlimit⟩, hconsecutive⟩ := hconditions
            obtain ⟨hlength, hfilled⟩ := filled_of_consecutive hconsecutive
            have hax : second a < second x := (List.pairwise_append.mp
              (List.pairwise_append.mp h.increasing).1).2.2 a (List.mem_singleton_self a) x hx
            refine ⟨h.run x hx, a, by simp, b, by simp, ha, hb, hax,
              h.second_lt hx List.mem_cons_self, by omega, fun s hlower hupper => ?_⟩
            obtain ⟨r, hr, hsecond⟩ := hfilled s hlower hupper
            exact ⟨r, by simp [hr], hsecond, h.run r hr⟩
        · exact absurd hclosed List.not_mem_nil
  · rintro ⟨-, a, ha, c, hc, hona, honc, hax, hxc, hnear, hfilled⟩
    have hbmem : b ∈ bound.toList ++ run ++ b :: l := by simp
    -- the element before the run is the lower bound
    obtain rfl : bound = some a := by
      obtain ha | ha := List.mem_append.mp ha
      · obtain ha | ha := List.mem_append.mp ha
        · exact Option.mem_toList.mp ha
        · exact absurd (h.run a ha) (by simp [hexclusive a hona])
      · have hlater := h.second_lt hx ha
        omega
    -- the element after the run is the upper bound, for no other one is reached over it
    obtain rfl : b = c := by
      obtain hc | hc := List.mem_append.mp hc
      · obtain hc | hc := List.mem_append.mp hc
        · obtain rfl := List.mem_singleton.mp hc
          omega
        · exact absurd (h.run c hc) (by simp [hexclusive c honc])
      · obtain rfl | hc := List.mem_cons.mp hc
        · rfl
        · have hbc : second b < second c :=
            List.rel_of_pairwise_cons (List.pairwise_append.mp h.increasing).2.1 hc
          have hxb := h.second_lt hx List.mem_cons_self
          obtain ⟨r, hr, hsecond, hoff⟩ := hfilled (second b) (by omega) hbc
          rw [h.increasing.eq_of_second_eq hr hbmem hsecond, hb] at hoff
          cases hoff
    have hrunFilled : ∀ s, second a < s → s < second b → ∃ r ∈ run, second r = s := by
      intro s hlower hupper
      obtain ⟨r, hr, hsecond, hoff⟩ := hfilled s hlower hupper
      refine ⟨r, ?_, hsecond⟩
      obtain hr | hr := List.mem_append.mp hr
      · obtain hr | hr := List.mem_append.mp hr
        · obtain rfl := List.mem_singleton.mp hr
          omega
        · exact hr
      · obtain rfl | hr := List.mem_cons.mp hr
        · omega
        · have hlater : second b < second r :=
            List.rel_of_pairwise_cons (List.pairwise_append.mp h.increasing).2.1 hr
          omega
    have hsorted : Increasing second (a :: run ++ [b]) := by
      refine h.increasing.sublist ?_
      exact ((List.singleton_sublist.mpr List.mem_cons_self).append_left (a :: run))
    obtain ⟨hconsecutive, hlength⟩ := consecutive_of_filled hsorted hrunFilled
    rw [closeRun, if_pos]
    · exact hx
    · simp only [Bool.and_eq_true, decide_eq_true_eq]
      exact ⟨⟨⟨hona, honc⟩, by omega⟩, hconsecutive⟩

theorem Underway.mem_of_le (h : Underway second off bound run (b :: l))
    (ha : a ∈ bound.toList ++ run ++ b :: l) (hle : second b ≤ second a) : a ∈ b :: l := by
  obtain ha | ha := List.mem_append.mp ha
  · have hlt := (List.pairwise_append.mp h.increasing).2.2 a ha b List.mem_cons_self
    omega
  · exact ha

/-- What was met before an element that is not off does not matter to what comes after it. -/
theorem Underway.bridged_iff (h : Underway second off bound run (b :: l)) (hb : off b = false)
    (hx : x ∈ l) : Bridged second on off limit (b :: l) x ↔
      Bridged second on off limit (bound.toList ++ run ++ b :: l) x := by
  have hbx : second b < second x :=
    List.rel_of_pairwise_cons (List.pairwise_append.mp h.increasing).2.1 hx
  have hbmem : b ∈ bound.toList ++ run ++ b :: l := by simp
  constructor
  · rintro ⟨hoff, a, ha, c, hc, hona, honc, hax, hxc, hnear, hfilled⟩
    refine ⟨hoff, a, List.mem_append_right _ ha, c, List.mem_append_right _ hc, hona, honc, hax, hxc,
      hnear, fun s hlower hupper => ?_⟩
    obtain ⟨r, hr, hsecond, hroff⟩ := hfilled s hlower hupper
    exact ⟨r, List.mem_append_right _ hr, hsecond, hroff⟩
  · rintro ⟨hoff, a, ha, c, hc, hona, honc, hax, hxc, hnear, hfilled⟩
    have hba : second b ≤ second a := by
      by_contra hlt
      obtain ⟨r, hr, hsecond, hroff⟩ := hfilled (second b) (by omega) (by omega)
      rw [h.increasing.eq_of_second_eq hr hbmem hsecond, hb] at hroff
      cases hroff
    refine ⟨hoff, a, h.mem_of_le ha hba, c, h.mem_of_le hc (by omega), hona, honc, hax, hxc, hnear,
      fun s hlower hupper => ?_⟩
    obtain ⟨r, hr, hsecond, hroff⟩ := hfilled s hlower hupper
    exact ⟨r, h.mem_of_le hr (by omega), hsecond, hroff⟩

variable (limit) in
/-- The walk bridges what the seconds say. -/
theorem mem_bridged_iff (hexclusive : ∀ r, on r = true → off r = false)
    (h : Underway second off bound run l) (hx : x ∈ run ++ l) :
    x ∈ bridged second on off limit bound run l ↔
      Bridged second on off limit (bound.toList ++ run ++ l) x := by
  induction l generalizing bound run with
  | nil =>
      refine iff_of_false List.not_mem_nil fun hbridged => ?_
      obtain ⟨-, a, -, c, hc, -, honc, hax, hxc, -⟩ := hbridged
      rw [List.append_nil] at hx hc
      obtain hc | hc := List.mem_append.mp hc
      · -- the bound comes before the run
        have hincreasing := h.increasing
        rw [List.append_nil] at hincreasing
        have hbefore := (List.pairwise_append.mp hincreasing).2.2 c hc x hx
        omega
      · exact absurd (h.run c hc) (by simp [hexclusive c honc])
  | cons b l ih =>
      rw [bridged]
      split
      · next hoff =>
          -- an off row lengthens the run that is under way
          have hlater : Underway second off bound (run ++ [b]) l :=
            { increasing := by simpa using h.increasing
              bound := h.bound
              run := by
                intro r hr
                obtain hr | hr := List.mem_append.mp hr
                · exact h.run r hr
                · rw [List.mem_singleton.mp hr]
                  exact hoff }
          have hmem := ih hlater (by simpa using hx)
          rw [hmem]
          simp
      · next hoff =>
          have hb : off b = false := Bool.eq_false_iff.mpr hoff
          -- any other row closes the run and bounds the next one
          have hlater : Underway second off (some b) [] l :=
            { increasing := (List.pairwise_append.mp h.increasing).2.1
              bound := by
                rintro c ⟨⟩
                exact hb
              run := nofun }
          have hrest : ∀ y, y ∈ bridged second on off limit (some b) [] l → y ∈ l := fun y hy => by
            simpa using mem_of_mem_bridged hy
          rw [List.mem_append]
          obtain hx | hx := List.mem_append.mp hx
          · rw [mem_closeRun_iff hexclusive h hb hx]
            refine or_iff_left fun hlate => ?_
            exact absurd (h.second_lt hx (List.mem_cons_of_mem b (hrest x hlate))) (lt_irrefl _)
          · rw [or_iff_right fun hclosed =>
              absurd (h.second_lt (mem_of_mem_closeRun hclosed) hx) (lt_irrefl _)]
            obtain rfl | hx := List.mem_cons.mp hx
            · refine iff_of_false (fun hlate => ?_) fun hbridged => ?_
              · exact absurd (List.rel_of_pairwise_cons
                  (List.pairwise_append.mp h.increasing).2.1 (hrest x hlate)) (lt_irrefl _)
              · exact absurd hbridged.1 (by simp [hb])
            · rw [ih hlater hx, ← h.bridged_iff hb hx]
              rfl

end Chronicle.Library.ShortRuns
