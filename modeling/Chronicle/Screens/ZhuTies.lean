import Chronicle.Library.Ties
import Chronicle.Screens.Partitions

/-!
# Ties under Zhu's rule

Zhu's rule as a scan: a screen row waits for the row after it. From the state before a tie and the
signals in it one reads off whether the order of the tie matters.
-/

namespace Chronicle.Screens

open Chronicle.Library Chronicle.Library.Ties

/-! ## The rule as a scan -/

/-- What the rule remembers of the rows before: nothing, a screen row that waits for the next row,
or an open interval. -/
inductive ZhuState where
  | idle
  | waiting (row : RawB05Event)
  | within (start : RawB05Event) (startRows : List Nat)
deriving DecidableEq, Repr

/-- The row is reported or waits when no interval is open. -/
def zhuPlaces (signal : AndroidUsageSignal) : Bool :=
  signal = .screenInteractive ∨ zhuCloses signal

/-- The state after a row that no interval is open for. -/
def zhuIdleNext (row : RawB05Event) : ZhuState :=
  if row.signal = .screenInteractive then .waiting row else .idle

/-- The state after a row. -/
def zhuNext : ZhuState → RawB05Event → ZhuState
  | .idle, row => zhuIdleNext row
  | .waiting before, row =>
      if row.signal = .keyguardHidden then
        .within row [before.sourceDataRow, row.sourceDataRow]
      else zhuIdleNext row
  | .within start startRows, row =>
      if zhuCloses row.signal then .idle else .within start startRows

section Scan

variable (sha256 : List UInt8 → List UInt8) (participantId : String)

/-- What a row emits that no interval is open for. -/
def zhuIdleEmits (row : RawB05Event) : ScreenSemanticSignature :=
  if zhuCloses row.signal then .ofIssue (issue participantId row.sourceDataRow .zhuOrphanStop)
  else 0

/-- The issue of a screen row that is not followed by an unlock. -/
def zhuNextNotHidden (row : RawB05Event) : ScreenSemanticSignature :=
  .ofIssue (issue participantId row.sourceDataRow .zhuScreenInteractiveNextNotKeyguardHidden)

/-- What a row emits. -/
def zhuEmits : ZhuState → RawB05Event → ScreenSemanticSignature
  | .idle, row => zhuIdleEmits participantId row
  | .waiting before, row =>
      if row.signal = .keyguardHidden then 0
      else zhuNextNotHidden participantId before + zhuIdleEmits participantId row
  | .within start startRows, row =>
      if zhuCloses row.signal then
        .ofInterval (zhuInterval sha256 participantId start startRows row)
      else 0

/-- Zhu's rule without looking ahead. -/
def zhuScan : Scan ZhuState RawB05Event ScreenSemanticSignature where
  step state row := (zhuNext state row, zhuEmits sha256 participantId state row)
  finish
    | .idle => 0
    | .waiting row =>
        .ofIssue (issue participantId row.sourceDataRow .zhuScreenInteractiveNoNextRow)
    | .within start startRows => .ofInterval (zhuOpenInterval sha256 participantId start startRows)

end Scan

section

variable {sha256 : List UInt8 → List UInt8} {participantId : String} {row next : RawB05Event}
variable {start : RawB05Event} {startRows : List Nat} {l : List RawB05Event}

theorem not_closes_of_screenInteractive (h : row.signal = .screenInteractive) :
    zhuCloses row.signal = false := by simp [zhuCloses, h]

theorem not_closes_of_keyguardHidden (h : row.signal = .keyguardHidden) :
    zhuCloses row.signal = false := by simp [zhuCloses, h]

theorem run_zhu_cons (s : ZhuState) (row : RawB05Event) (l : List RawB05Event) :
    (zhuScan sha256 participantId).run s (row :: l) =
      zhuEmits sha256 participantId s row + (zhuScan sha256 participantId).run (zhuNext s row) l :=
  rfl

/-- A waiting row that no unlock follows is reported, and the rest is read as after nothing. -/
theorem run_zhu_waiting (h : next.signal ≠ .keyguardHidden) :
    (zhuScan sha256 participantId).run (.waiting row) (next :: l) =
      zhuNextNotHidden participantId row +
        (zhuScan sha256 participantId).run .idle (next :: l) := by
  rw [run_zhu_cons, run_zhu_cons]
  simp only [zhuNext, zhuEmits, h, if_false, add_assoc]

theorem run_zhu_hidden (h : next.signal = .keyguardHidden) :
    (zhuScan sha256 participantId).run (.waiting row) (next :: l) =
      (zhuScan sha256 participantId).run
        (.within next [row.sourceDataRow, next.sourceDataRow]) l := by
  rw [run_zhu_cons]
  simp only [zhuNext, zhuEmits, h, if_true, zero_add]

theorem run_zhu_screenInteractive (h : row.signal = .screenInteractive) :
    (zhuScan sha256 participantId).run .idle (row :: l) =
      (zhuScan sha256 participantId).run (.waiting row) l := by
  rw [run_zhu_cons]
  simp only [zhuNext, zhuEmits, zhuIdleNext, zhuIdleEmits, not_closes_of_screenInteractive h]
  simp [h]

theorem run_zhu_orphan (h : zhuCloses row.signal = true) :
    (zhuScan sha256 participantId).run .idle (row :: l) =
      .ofIssue (issue participantId row.sourceDataRow .zhuOrphanStop) +
        (zhuScan sha256 participantId).run .idle l := by
  have hnot : row.signal ≠ .screenInteractive := by
    intro hsignal
    simp [not_closes_of_screenInteractive hsignal] at h
  rw [run_zhu_cons]
  simp only [zhuNext, zhuEmits, zhuIdleNext, zhuIdleEmits, h, hnot, if_true, if_false]

theorem run_zhu_closes (h : zhuCloses row.signal = true) :
    (zhuScan sha256 participantId).run (.within start startRows) (row :: l) =
      .ofInterval (zhuInterval sha256 participantId start startRows row) +
        (zhuScan sha256 participantId).run .idle l := by
  rw [run_zhu_cons]
  simp only [zhuNext, zhuEmits, h, if_true]

theorem quiet_within (h : zhuCloses row.signal = false) :
    (zhuScan sha256 participantId).Quiet (.within start startRows) row := by
  simp [Scan.Quiet, zhuScan, zhuNext, zhuEmits, h]

theorem quiet_idle (h : zhuPlaces row.signal = false) :
    (zhuScan sha256 participantId).Quiet .idle row := by
  simp only [zhuPlaces, Bool.decide_or, Bool.or_eq_false_iff, decide_eq_false_iff_not,
    Bool.decide_eq_true] at h
  simp [Scan.Quiet, zhuScan, zhuNext, zhuEmits, zhuIdleNext, zhuIdleEmits, h]

/-- The loop that looks ahead and the scan emit the same. -/
theorem zhuFrom_eq_run (l : List RawB05Event) :
    zhuFrom sha256 participantId none l = (zhuScan sha256 participantId).run .idle l ∧
      ∀ start startRows, zhuFrom sha256 participantId (some (start, startRows)) l =
        (zhuScan sha256 participantId).run (.within start startRows) l := by
  induction l with
  | nil => exact ⟨rfl, fun _ _ => rfl⟩
  | cons row rest ih =>
      constructor
      · rw [zhuFrom]
        split_ifs with hstart hcloses
        · rw [run_zhu_screenInteractive hstart]
          cases rest with
          | nil => exact add_zero _
          | cons next rest =>
              by_cases hhidden : next.signal = .keyguardHidden
              · simp only [List.head?_cons, hhidden, if_true, ih.2]
                rw [run_zhu_hidden hhidden,
                  Scan.run_cons_quiet (quiet_within (not_closes_of_keyguardHidden hhidden))]
              · simp only [List.head?_cons, hhidden, if_false, ih.1]
                rw [run_zhu_waiting hhidden]
                rfl
        · rw [run_zhu_orphan hcloses, ih.1]
        · rw [ih.1, Scan.run_cons_quiet (quiet_idle (by simp [zhuPlaces, hstart, hcloses]))]
      · intro start startRows
        rw [zhuFrom]
        split_ifs with hcloses
        · rw [run_zhu_closes hcloses, ih.1]
        · rw [ih.2, Scan.run_cons_quiet (quiet_within (by simpa using hcloses))]

/-- Zhu's partition is what the scan emits. -/
theorem constructZhuPartition_eq (l : List RawB05Event) :
    constructZhuPartition sha256 participantId l = (zhuScan sha256 participantId).run .idle l :=
  (zhuFrom_eq_run l).1

end

/-! ## Ties that are settled -/

/-- No row of the group is an unlock. -/
def HiddenFree (group : List RawB05Event) : Prop := ∀ row ∈ group, row.signal ≠ .keyguardHidden

/-- A tie that is read while no interval is open: it places at most one row, and a screen row has no
unlock in its tie and is followed by a group without one. -/
def ClosedTie (tie next : List RawB05Event) : Prop :=
  (tie.filter fun row => zhuPlaces row.signal).length ≤ 1 ∧
    ∀ row ∈ tie, row.signal = .screenInteractive →
      HiddenFree tie ∧ next ≠ [] ∧ HiddenFree next

/-- The order of a tie does not matter after the state. -/
def ZhuTie (tie next : List RawB05Event) : ZhuState → Prop
  | .idle => ClosedTie tie next
  | .waiting _ => HiddenFree tie ∧ ClosedTie tie next
  | .within _ _ =>
      (∀ row ∈ tie, zhuCloses row.signal = false) ∨
        (tie.filter fun row => zhuPlaces row.signal).length ≤ 1

/-- Every tie of two or more rows is settled in the state that the rows before it leave. -/
def ZhuSettled : ZhuState → List (List RawB05Event) → Prop
  | _, [] => True
  | s, group :: groups =>
      (2 ≤ group.length → ZhuTie group (groups.headD []) s) ∧
        ZhuSettled (group.foldl zhuNext s) groups

/-! ## Settled ties do not matter -/

section Settled

variable {sha256 : List UInt8 → List UInt8} {participantId : String}
variable {group tie next after rest : List RawB05Event} {groups groups' : List (List RawB05Event)}

variable (sha256 participantId) in
theorem state_zhu (s : ZhuState) (l : List RawB05Event) :
    (zhuScan sha256 participantId).state s l = l.foldl zhuNext s := rfl

theorem foldl_zhuNext_idle (h : ∀ row ∈ group, row.signal ≠ .screenInteractive) :
    group.foldl zhuNext .idle = .idle := by
  induction group with
  | nil => rfl
  | cons row group ih =>
      obtain ⟨hrow, hgroup⟩ := List.forall_mem_cons.mp h
      rw [List.foldl_cons, zhuNext, zhuIdleNext, if_neg hrow]
      exact ih hgroup

/-- Without an unlock no interval opens. -/
theorem foldl_zhuNext_hiddenFree (h : HiddenFree group) :
    group.foldl zhuNext .idle = .idle ∨ ∃ row, group.foldl zhuNext .idle = .waiting row := by
  have hstep : ∀ {s : ZhuState} {l : List RawB05Event}, HiddenFree l →
      (s = .idle ∨ ∃ row, s = .waiting row) →
      l.foldl zhuNext s = .idle ∨ ∃ row, l.foldl zhuNext s = .waiting row := by
    intro s l hl
    induction l generalizing s with
    | nil => exact id
    | cons row l ih =>
        obtain ⟨hrow, hl⟩ := List.forall_mem_cons.mp hl
        intro hs
        refine ih hl ?_
        have hidle : zhuIdleNext row = .idle ∨ ∃ before, zhuIdleNext row = .waiting before := by
          unfold zhuIdleNext
          split
          · exact .inr ⟨row, rfl⟩
          · exact .inl rfl
        rcases hs with rfl | ⟨before, rfl⟩
        · exact hidle
        · rwa [zhuNext, if_neg hrow]
  exact hstep h (.inl rfl)

/-- A waiting row is forgotten by a group without an unlock. -/
theorem foldl_zhuNext_waiting (h : HiddenFree group) (hne : group ≠ []) (row : RawB05Event) :
    group.foldl zhuNext (.waiting row) = group.foldl zhuNext .idle := by
  cases group with
  | nil => exact absurd rfl hne
  | cons next group =>
      have hnext := h next List.mem_cons_self
      rw [List.foldl_cons, List.foldl_cons]
      simp only [zhuNext, if_neg hnext]

theorem settled_waiting_iff (hne : ∀ group ∈ groups, group ≠ [])
    (h : HiddenFree (groups.headD [])) (row : RawB05Event) :
    ZhuSettled (.waiting row) groups ↔ ZhuSettled .idle groups := by
  cases groups with
  | nil => exact Iff.rfl
  | cons group groups =>
      have h : HiddenFree group := h
      rw [ZhuSettled, ZhuSettled, foldl_zhuNext_waiting h (hne group List.mem_cons_self) row]
      refine and_congr_left' (imp_congr_right fun _ => ?_)
      exact and_iff_right h

/-- A row that the rule places, between rows that it does not place. -/
theorem exists_split_of_filter {row : RawB05Event}
    (h : (group.filter fun row => zhuPlaces row.signal) = [row]) :
    ∃ first last, group = first ++ row :: last ∧
      (∀ other ∈ first, zhuPlaces other.signal = false) ∧ zhuPlaces row.signal = true ∧
      ∀ other ∈ last, zhuPlaces other.signal = false := by
  obtain ⟨first, last, hgroup, hfirst, hrow, hlast⟩ := List.filter_eq_cons_iff.mp h
  refine ⟨first, last, hgroup, fun other hother => ?_, hrow, fun other hother => ?_⟩
  · simpa using hfirst other hother
  · simpa using List.filter_eq_nil_iff.mp hlast other hother

theorem closes_of_places {row : RawB05Event} (h : zhuPlaces row.signal = true)
    (hnot : row.signal ≠ .screenInteractive) : zhuCloses row.signal = true := by
  simpa [zhuPlaces, hnot] using h

theorem not_closes_of_not_places {row : RawB05Event} (h : zhuPlaces row.signal = false) :
    zhuCloses row.signal = false := by
  simp only [zhuPlaces, Bool.decide_or, Bool.or_eq_false_iff, Bool.decide_eq_true] at h
  exact h.2

variable (sha256 participantId) in
/-- A settled tie emits the same in every order, and leaves no interval open. -/
theorem exists_emits_closedTie (h : ClosedTie tie next) :
    ∃ emits, ∀ tie', tie.Perm tie' → ∀ rest,
      ((∃ row ∈ tie, row.signal = .screenInteractive) →
        ∃ following more, rest = following :: more ∧ following.signal ≠ .keyguardHidden) →
      (zhuScan sha256 participantId).run .idle (tie' ++ rest) =
        emits + (zhuScan sha256 participantId).run .idle rest := by
  obtain ⟨hcount, hscreen⟩ := h
  rcases hfilter : tie.filter fun row => zhuPlaces row.signal with _ | ⟨row, _ | ⟨other, more⟩⟩
  case nil =>
      refine ⟨0, fun tie' hperm rest _ => ?_⟩
      rw [zero_add]
      refine Scan.run_append_quiet (fun row hrow => quiet_idle ?_) rest
      simpa using List.filter_eq_nil_iff.mp hfilter row (hperm.mem_iff.mpr hrow)
  case cons.cons =>
      simp [hfilter] at hcount
  case cons.nil =>
      refine ⟨if row.signal = .screenInteractive then zhuNextNotHidden participantId row
        else .ofIssue (issue participantId row.sourceDataRow .zhuOrphanStop),
        fun tie' hperm rest hrest => ?_⟩
      have hfilter' : (tie'.filter fun row => zhuPlaces row.signal) = [row] := by
        have hperm' := hperm.filter fun row => zhuPlaces row.signal
        rw [hfilter] at hperm'
        exact (List.singleton_perm.mp hperm').symm
      obtain ⟨first, last, htie', hfirst, hrow, hlast⟩ := exists_split_of_filter hfilter'
      have hmem : row ∈ tie := hperm.mem_iff.mpr (by simp [htie'])
      rw [htie', List.append_assoc,
        Scan.run_append_quiet (fun other hother => quiet_idle (hfirst other hother)),
        List.cons_append]
      have hquiet := @Scan.run_append_quiet _ _ _ _ (zhuScan sha256 participantId) _ _
        (fun other hother => quiet_idle (hlast other hother)) rest
      split_ifs with hsignal
      · rw [run_zhu_screenInteractive hsignal, ← hquiet]
        obtain ⟨following, more, rfl, hfollowing⟩ := hrest ⟨row, hmem, hsignal⟩
        cases last with
        | nil => exact run_zhu_waiting hfollowing
        | cons other last =>
            refine run_zhu_waiting ((hscreen row hmem hsignal).1 other ?_)
            exact hperm.mem_iff.mpr (by simp [htie'])
      · rw [run_zhu_orphan (closes_of_places hrow hsignal), hquiet]

/-- After a settled tie the rule goes on as after nothing. -/
theorem settled_idle_of_closedTie (hne : ∀ group ∈ groups, group ≠ [])
    (h : ClosedTie tie (groups.headD []))
    (hrest : ZhuSettled (tie.foldl zhuNext .idle) groups) : ZhuSettled .idle groups := by
  by_cases hscreen : ∃ row ∈ tie, row.signal = .screenInteractive
  · obtain ⟨row, hrow, hsignal⟩ := hscreen
    obtain ⟨htie, -, hnext⟩ := h.2 row hrow hsignal
    rcases foldl_zhuNext_hiddenFree htie with hstate | ⟨waiting, hstate⟩
    · rwa [hstate] at hrest
    · rw [hstate] at hrest
      exact (settled_waiting_iff hne hnext waiting).mp hrest
  · rwa [foldl_zhuNext_idle fun row hrow hsignal => hscreen ⟨row, hrow, hsignal⟩] at hrest

/-- One row ends the open interval, in every order of its tie. -/
theorem run_within_closes {start : RawB05Event} {startRows : List Nat} {row : RawB05Event}
    (hfilter : (tie.filter fun row => zhuPlaces row.signal) = [row])
    (hrow : zhuCloses row.signal = true) (rest : List RawB05Event) :
    (zhuScan sha256 participantId).run (.within start startRows) (tie ++ rest) =
      .ofInterval (zhuInterval sha256 participantId start startRows row) +
        (zhuScan sha256 participantId).run .idle rest := by
  obtain ⟨first, last, rfl, hfirst, -, hlast⟩ := exists_split_of_filter hfilter
  rw [List.append_assoc, Scan.run_append_quiet fun other hother =>
      quiet_within (not_closes_of_not_places (hfirst other hother)),
    List.cons_append, run_zhu_closes hrow,
    Scan.run_append_quiet fun other hother => quiet_idle (hlast other hother)]

theorem foldl_zhuNext_within {start : RawB05Event} {startRows : List Nat} {row : RawB05Event}
    (hfilter : (tie.filter fun row => zhuPlaces row.signal) = [row])
    (hrow : zhuCloses row.signal = true) :
    tie.foldl zhuNext (.within start startRows) = .idle := by
  obtain ⟨first, last, rfl, hfirst, -, hlast⟩ := exists_split_of_filter hfilter
  rw [← state_zhu (fun _ => []) "", Scan.state_append,
    Scan.state_of_quiet fun other hother =>
      quiet_within (not_closes_of_not_places (hfirst other hother)), Scan.state_cons]
  have hnext : ((zhuScan (fun _ => []) "").step (.within start startRows) row).1 = .idle := by
    simp only [zhuScan, zhuNext, hrow, if_true]
  rw [hnext]
  exact Scan.state_of_quiet fun other hother => quiet_idle (hlast other hother)

/-- The groups that follow begin with a row that is no unlock, in every order. -/
theorem exists_following (hne : ∀ group ∈ groups, group ≠ [])
    (hperm : List.Forall₂ List.Perm groups groups') (hnext : groups.headD [] ≠ [])
    (hfree : HiddenFree (groups.headD [])) :
    ∃ following more, groups'.flatten = following :: more ∧
      following.signal ≠ .keyguardHidden := by
  cases hperm with
  | nil => exact absurd rfl hnext
  | @cons group group' groups groups' hgroup _ =>
      cases group' with
      | nil => exact absurd hgroup.eq_nil hnext
      | cons following more =>
          exact ⟨following, more ++ groups'.flatten, rfl,
            hfree following (hgroup.mem_iff.mpr List.mem_cons_self)⟩

variable (sha256 participantId) in
/-- When every tie is settled, the order of tied rows does not matter. -/
theorem run_eq_of_settled {s : ZhuState} (hne : ∀ group ∈ groups, group ≠ [])
    (h : ZhuSettled s groups) (hperm : List.Forall₂ List.Perm groups groups') :
    (zhuScan sha256 participantId).run s groups'.flatten =
      (zhuScan sha256 participantId).run s groups.flatten := by
  -- group by group: a settled tie leaves the same state and the same output in every order
  induction hperm generalizing s with
  | nil => rfl
  | @cons group group' groups groups' hgroup hgroups ih =>
      obtain ⟨hgroupNe, hrestNe⟩ := List.forall_mem_cons.mp hne
      obtain ⟨htie, hrest⟩ := h
      rw [List.flatten_cons, List.flatten_cons]
      -- in the idle state a settled tie emits the same in every order and ends idle again
      have hclosed : ClosedTie group (groups.headD []) →
          (ZhuSettled (group.foldl zhuNext .idle) groups) →
          (zhuScan sha256 participantId).run .idle (group' ++ groups'.flatten) =
            (zhuScan sha256 participantId).run .idle (group ++ groups.flatten) := by
        intro hclosed hrest
        obtain ⟨emits, hemits⟩ := exists_emits_closedTie sha256 participantId hclosed
        have hfollow : ∀ {others}, List.Forall₂ List.Perm groups others →
            (∃ row ∈ group, row.signal = .screenInteractive) →
            ∃ following more, others.flatten = following :: more ∧
              following.signal ≠ .keyguardHidden := by
          rintro others hothers ⟨row, hrow, hsignal⟩
          obtain ⟨-, hnext, hfree⟩ := hclosed.2 row hrow hsignal
          exact exists_following hrestNe hothers hnext hfree
        rw [hemits group' hgroup _ (hfollow hgroups),
          hemits group (List.Perm.refl _) _ (hfollow (List.forall₂_same.mpr fun _ _ => .refl _)),
          ih hrestNe (settled_idle_of_closedTie hrestNe hclosed hrest)]
      by_cases hlength : 2 ≤ group.length
      · have htie := htie hlength
        cases s with
        | idle => exact hclosed htie hrest
        | waiting row =>
            rw [foldl_zhuNext_waiting htie.1 hgroupNe] at hrest
            -- whichever row comes first settles the waiting row as not hidden
            have hfirst : ∀ {l : List RawB05Event} (more), group.Perm l →
                (zhuScan sha256 participantId).run (.waiting row) (l ++ more) =
                  zhuNextNotHidden participantId row +
                    (zhuScan sha256 participantId).run .idle (l ++ more) := by
              intro l more hl
              cases l with
              | nil => exact absurd hl.eq_nil hgroupNe
              | cons next l =>
                  exact run_zhu_waiting (htie.1 next (hl.mem_iff.mpr List.mem_cons_self))
            rw [hfirst _ hgroup, hfirst _ (List.Perm.refl group), hclosed htie.2 hrest]
        | within start startRows =>
            by_cases hcloses : ∀ row ∈ group, zhuCloses row.signal = false
            · -- nothing closes the open session
              have hstate : group.foldl zhuNext (.within start startRows) =
                  .within start startRows := by
                rw [← state_zhu sha256 participantId]
                exact Scan.state_of_quiet fun row hrow => quiet_within (hcloses row hrow)
              rw [hstate] at hrest
              rw [Scan.run_append_quiet fun row hrow =>
                  quiet_within (hcloses row (hgroup.mem_iff.mpr hrow)),
                Scan.run_append_quiet fun row hrow => quiet_within (hcloses row hrow), ih hrestNe hrest]
            · simp only [not_forall, Bool.not_eq_false] at hcloses
              obtain ⟨row, hrow, hrowCloses⟩ := hcloses
              -- exactly one row of the tie matters, and it closes the session
              have hcount := htie.resolve_left fun hnone => by simp [hnone row hrow] at hrowCloses
              have hmem : row ∈ group.filter fun row => zhuPlaces row.signal :=
                List.mem_filter.mpr ⟨hrow, by simp [zhuPlaces, hrowCloses]⟩
              have hfilter : (group.filter fun row => zhuPlaces row.signal) = [row] := by
                obtain ⟨only, honly⟩ := List.length_eq_one_iff.mp
                  (le_antisymm hcount (List.length_pos_of_mem hmem))
                rw [honly] at hmem ⊢
                rw [List.mem_singleton.mp hmem]
              have hfilter' : (group'.filter fun row => zhuPlaces row.signal) = [row] := by
                have hperm := hgroup.filter fun row => zhuPlaces row.signal
                rw [hfilter] at hperm
                exact (List.singleton_perm.mp hperm).symm
              rw [foldl_zhuNext_within hfilter hrowCloses] at hrest
              rw [run_within_closes hfilter' hrowCloses, run_within_closes hfilter hrowCloses,
                ih hrestNe hrest]
      · obtain ⟨row, rfl⟩ : ∃ row, group = [row] := by
          refine List.length_eq_one_iff.mp ?_
          have := List.length_pos_iff.mpr hgroupNe
          omega
        rw [← List.singleton_perm.mp hgroup]
        exact Scan.run_append_congr (ih hrestNe hrest)

end Settled

/-! ## Ties that matter -/

/-- The rows that the state will name. -/
def ZhuState.rows : ZhuState → List Nat
  | .idle => []
  | .waiting row => [row.sourceDataRow]
  | .within _ startRows => startRows

/-- The row that waits. -/
def ZhuState.waitingRows : ZhuState → List Nat
  | .waiting row => [row.sourceDataRow]
  | _ => []

section Decisive

variable {sha256 : List UInt8 → List UInt8} {participantId : String} {s : ZhuState}
variable {row : RawB05Event} {l : List RawB05Event} {source : Nat}

theorem rows_zhuNext (h : source ∈ (zhuNext s row).rows) :
    source ∈ s.rows ∨ source = row.sourceDataRow := by
  have hidle : source ∈ (zhuIdleNext row).rows → source = row.sourceDataRow := by
    unfold zhuIdleNext
    split <;> simp [ZhuState.rows]
  cases s with
  | idle => exact .inr (hidle h)
  | waiting before =>
      simp only [zhuNext] at h
      split at h
      · simpa [ZhuState.rows] using h
      · exact .inr (hidle h)
  | within start startRows =>
      simp only [zhuNext] at h
      split at h
      · exact absurd h List.not_mem_nil
      · exact .inl h

theorem waitingRows_zhuNext (h : source ∈ (zhuNext s row).waitingRows) :
    source = row.sourceDataRow := by
  have hidle : source ∈ (zhuIdleNext row).waitingRows → source = row.sourceDataRow := by
    unfold zhuIdleNext
    split <;> simp [ZhuState.waitingRows]
  cases s with
  | idle => exact hidle h
  | waiting before =>
      simp only [zhuNext] at h
      split at h
      · exact absurd h List.not_mem_nil
      · exact hidle h
  | within start startRows =>
      simp only [zhuNext] at h
      split at h <;> exact absurd h List.not_mem_nil

theorem intervalRows_zhuInterval {start stop : RawB05Event} {startRows : List Nat}
    (h : source ∈ (ScreenSemanticSignature.ofInterval
      (zhuInterval sha256 participantId start startRows stop)).intervalRows) :
    source ∈ startRows ∨ source = stop.sourceDataRow := by
  rw [ScreenSemanticSignature.intervalRows_ofInterval, List.mem_append] at h
  rcases h with h | h
  · exact .inl (mem_sortDedup.mp h)
  · exact .inr (List.mem_singleton.mp (mem_sortDedup.mp h))

theorem intervalRows_zhuEmits
    (h : source ∈ (zhuEmits sha256 participantId s row).intervalRows) :
    source ∈ s.rows ∨ source = row.sourceDataRow := by
  have hidle : source ∉ (zhuIdleEmits participantId row).intervalRows := by
    unfold zhuIdleEmits
    split <;> simp
  cases s with
  | idle => exact absurd h hidle
  | waiting before =>
      simp only [zhuEmits] at h
      split at h
      · exact absurd h List.not_mem_nil
      · rw [ScreenSemanticSignature.intervalRows_add] at h
        exact absurd h hidle
  | within start startRows =>
      simp only [zhuEmits] at h
      split at h
      · exact intervalRows_zhuInterval h
      · exact absurd h List.not_mem_nil

theorem issueRows_zhuEmits (h : source ∈ (zhuEmits sha256 participantId s row).issueRows) :
    source ∈ s.waitingRows ∨ source = row.sourceDataRow := by
  have hidle : source ∈ (zhuIdleEmits participantId row).issueRows →
      source = row.sourceDataRow := by
    unfold zhuIdleEmits
    split <;> simp [issue]
  cases s with
  | idle => exact .inr (hidle h)
  | waiting before =>
      simp only [zhuEmits] at h
      split at h
      · exact absurd h List.not_mem_nil
      · rw [ScreenSemanticSignature.issueRows_add, List.mem_append] at h
        exact h.imp id hidle
  | within start startRows =>
      simp only [zhuEmits] at h
      split at h <;> exact absurd h List.not_mem_nil

/-- An interval names only rows of the state and rows that are read. -/
theorem mem_of_mem_intervalRows
    (h : source ∈ ((zhuScan sha256 participantId).run s l).intervalRows) :
    source ∈ s.rows ∨ source ∈ l.map (·.sourceDataRow) := by
  induction l generalizing s with
  | nil =>
      cases s with
      | idle => exact absurd h List.not_mem_nil
      | waiting row => exact absurd h List.not_mem_nil
      | within start startRows =>
          rcases List.mem_append.mp (by simpa [zhuScan] using h) with h | h
          · exact .inl (mem_sortDedup.mp h)
          · exact absurd (mem_sortDedup.mp h) List.not_mem_nil
  | cons row l ih =>
      rw [run_zhu_cons, ScreenSemanticSignature.intervalRows_add, List.mem_append] at h
      rw [List.map_cons, List.mem_cons, ← or_assoc]
      rcases h with h | h
      · exact .inl (intervalRows_zhuEmits h)
      · exact (ih h).imp rows_zhuNext id

/-- An issue names only the waiting row and rows that are read. -/
theorem mem_of_mem_issueRows
    (h : source ∈ ((zhuScan sha256 participantId).run s l).issueRows) :
    source ∈ s.waitingRows ∨ source ∈ l.map (·.sourceDataRow) := by
  induction l generalizing s with
  | nil =>
      cases s with
      | idle => exact absurd h List.not_mem_nil
      | waiting row => exact .inl (by simpa [zhuScan, issue, ZhuState.waitingRows] using h)
      | within start startRows => exact absurd h List.not_mem_nil
  | cons row l ih =>
      rw [run_zhu_cons, ScreenSemanticSignature.issueRows_add, List.mem_append] at h
      rw [List.map_cons, List.mem_cons, ← or_assoc]
      rcases h with h | h
      · exact .inl (issueRows_zhuEmits h)
      · exact (ih h).imp (fun h => .inr (waitingRows_zhuNext h)) id

variable (sha256 participantId) in
/-- The rows that open an interval are named by it. -/
theorem mem_intervalRows_within (start : RawB05Event) {startRows : List Nat}
    (h : source ∈ startRows) (l : List RawB05Event) :
    source ∈ ((zhuScan sha256 participantId).run (.within start startRows) l).intervalRows := by
  induction l with
  | nil =>
      have hnamed : source ∈ (zhuOpenInterval sha256 participantId start startRows).startSourceRows :=
        mem_sortDedup.mpr h
      simpa [zhuScan] using .inl hnamed
  | cons row l ih =>
      by_cases hcloses : zhuCloses row.signal = true
      · have hnamed : source ∈
            (zhuInterval sha256 participantId start startRows row).startSourceRows :=
          mem_sortDedup.mpr h
        rw [run_zhu_closes hcloses]
        simp [hnamed]
      · rwa [Scan.run_cons_quiet (quiet_within (by simpa using hcloses))]

variable (sha256 participantId) in
/-- A waiting row is named: by an issue, or by the interval it opens. -/
theorem mem_rows_waiting (row : RawB05Event) (l : List RawB05Event) :
    row.sourceDataRow ∈
        ((zhuScan sha256 participantId).run (.waiting row) l).intervalRows ∨
      row.sourceDataRow ∈ ((zhuScan sha256 participantId).run (.waiting row) l).issueRows := by
  cases l with
  | nil => exact .inr (by simp [zhuScan, issue])
  | cons next l =>
      by_cases hhidden : next.signal = .keyguardHidden
      · rw [run_zhu_hidden hhidden]
        exact .inl (mem_intervalRows_within _ _ _ (by simp) l)
      · rw [run_zhu_waiting hhidden]
        exact .inr (by simp [zhuNextNotHidden, issue])

variable (sha256 participantId l) in
/-- The first of two placed rows is the first to be reported. -/
theorem exists_issue_of_places {next : RawB05Event} (hrow : zhuPlaces row.signal = true)
    (hnext : next.signal ≠ .keyguardHidden) :
    ∃ code rest, (zhuScan sha256 participantId).run .idle (row :: next :: l) =
      .ofIssue (issue participantId row.sourceDataRow code) + rest := by
  by_cases hsignal : row.signal = .screenInteractive
  · rw [run_zhu_screenInteractive hsignal, run_zhu_waiting hnext]
    exact ⟨_, _, rfl⟩
  · rw [run_zhu_orphan (closes_of_places hrow hsignal)]
    exact ⟨_, _, rfl⟩

theorem not_hidden_of_places (h : zhuPlaces row.signal = true) :
    row.signal ≠ .keyguardHidden := by
  intro hsignal
  simp [zhuPlaces, zhuCloses, hsignal] at h

variable {group rest : List RawB05Event} {groups : List (List RawB05Event)}

theorem within_of_orderFree {start : RawB05Event} {startRows : List Nat}
    (hfree : ∀ group', group.Perm group' →
      (zhuScan sha256 participantId).run (.within start startRows) (group' ++ rest) =
        (zhuScan sha256 participantId).run (.within start startRows) (group ++ rest))
    (hdistinct : DistinctRows (group ++ rest)) :
    (∀ row ∈ group, zhuCloses row.signal = false) ∨
      (group.filter fun row => zhuPlaces row.signal).length ≤ 1 := by
  by_contra hcontra
  simp only [not_or, not_forall, not_le, Bool.not_eq_false] at hcontra
  obtain ⟨⟨stop, hstop, hcloses⟩, hcount⟩ := hcontra
  obtain ⟨others, hothers⟩ := exists_perm_cons hstop
  have hplaces : zhuPlaces stop.signal = true := by simp [zhuPlaces, hcloses]
  obtain ⟨other, hother, hotherPlaces⟩ : ∃ other ∈ others, zhuPlaces other.signal = true := by
    have hlength := (hothers.filter fun row => zhuPlaces row.signal).length_eq
    rw [List.filter_cons_of_pos (by simpa using hplaces), List.length_cons] at hlength
    obtain ⟨other, hmem⟩ := List.exists_mem_of_length_pos
      (l := others.filter fun row => zhuPlaces row.signal) (by omega)
    exact ⟨other, (List.mem_filter.mp hmem).1, by simpa using (List.mem_filter.mp hmem).2⟩
  obtain ⟨more, hmore⟩ := exists_perm_cons hother
  have hperm : group.Perm (stop :: other :: more) := hothers.trans (hmore.cons stop)
  have heq := (hfree _ hperm).trans (hfree _ (hperm.trans (.swap _ _ _))).symm
  have hrows : DistinctRows (stop :: other :: (more ++ rest)) :=
    hdistinct.perm (hperm.append_right rest)
  simp only [DistinctRows, List.map_cons, List.nodup_cons, List.mem_cons, not_or] at hrows
  obtain ⟨⟨hne, -⟩, hotherNew, -⟩ := hrows
  rw [List.cons_append, List.cons_append, List.cons_append, List.cons_append,
    run_zhu_closes hcloses] at heq
  by_cases hotherCloses : zhuCloses other.signal = true
  · rw [run_zhu_closes hotherCloses] at heq
    have hfirst := (List.cons.inj (congrArg ScreenSemanticSignature.intervals heq)).1
    have hboundary := congrArg ScreenIntervalEvidence.stopBoundarySourceRow hfirst
    exact hne (Option.some.inj hboundary)
  · have hsignal : other.signal = .screenInteractive := by
      by_contra hnot
      exact hotherCloses (closes_of_places hotherPlaces hnot)
    rw [Scan.run_cons_quiet (quiet_within (by simpa using hotherCloses)),
      run_zhu_closes hcloses, run_zhu_screenInteractive hsignal] at heq
    have heq := add_left_cancel heq
    rcases mem_rows_waiting sha256 participantId other
      (more ++ rest) with h | h
    · rw [heq] at h
      exact hotherNew ((mem_of_mem_intervalRows h).resolve_left List.not_mem_nil)
    · rw [heq] at h
      exact hotherNew ((mem_of_mem_issueRows h).resolve_left List.not_mem_nil)

theorem hiddenFree_of_orderFree_waiting
    (hfree : ∀ group', group.Perm group' →
      (zhuScan sha256 participantId).run (.waiting row) (group' ++ rest) =
        (zhuScan sha256 participantId).run (.waiting row) (group ++ rest))
    (hdistinct : DistinctRows (row :: (group ++ rest))) (hlength : 2 ≤ group.length) :
    HiddenFree group := by
  intro hidden hmem hsignal
  obtain ⟨others, hothers⟩ := exists_perm_cons hmem
  obtain ⟨other, more, rfl⟩ : ∃ other more, others = other :: more := by
    have hcount := hothers.length_eq
    cases others with
    | nil => rw [List.length_singleton] at hcount; omega
    | cons other more => exact ⟨other, more, rfl⟩
  have heq := (hfree _ hothers).trans (hfree _ (hothers.trans (.swap _ _ _))).symm
  have hrows : DistinctRows (row :: hidden :: other :: (more ++ rest)) :=
    hdistinct.perm ((hothers.append_right rest).cons row)
  simp only [DistinctRows, List.map_cons, List.nodup_cons, List.mem_cons, not_or] at hrows
  obtain ⟨⟨hrowHidden, hrowOther, hrowNew⟩, ⟨hne, hhiddenNew⟩, -⟩ := hrows
  rw [List.cons_append, List.cons_append, List.cons_append, List.cons_append,
    run_zhu_hidden hsignal] at heq
  by_cases hotherSignal : other.signal = .keyguardHidden
  · rw [run_zhu_hidden hotherSignal,
      Scan.run_cons_quiet (quiet_within (not_closes_of_keyguardHidden hotherSignal)),
      Scan.run_cons_quiet (quiet_within (not_closes_of_keyguardHidden hsignal))] at heq
    have hnamed := mem_intervalRows_within sha256 participantId hidden
      (show hidden.sourceDataRow ∈ [row.sourceDataRow, hidden.sourceDataRow] by simp) (more ++ rest)
    rw [heq] at hnamed
    rcases mem_of_mem_intervalRows hnamed with h | h
    · simp only [ZhuState.rows, List.mem_cons, List.not_mem_nil, or_false] at h
      rcases h with h | h
      · exact hrowHidden h.symm
      · exact hne h
    · exact hhiddenNew h
  · rw [run_zhu_waiting hotherSignal] at heq
    have hissue : row.sourceDataRow ∈ ((zhuScan sha256 participantId).run
        (.within hidden [row.sourceDataRow, hidden.sourceDataRow])
          (other :: (more ++ rest))).issueRows := by
      rw [heq]
      simp [zhuNextNotHidden, issue]
    rcases mem_of_mem_issueRows hissue with h | h
    · exact absurd h List.not_mem_nil
    · rcases List.mem_cons.mp h with h | h
      · exact hrowOther h
      · exact hrowNew h

theorem length_places_le_of_orderFree
    (hfree : ∀ group', group.Perm group' →
      (zhuScan sha256 participantId).run .idle (group' ++ rest) =
        (zhuScan sha256 participantId).run .idle (group ++ rest))
    (hdistinct : DistinctRows (group ++ rest)) :
    (group.filter fun row => zhuPlaces row.signal).length ≤ 1 := by
  by_contra hcontra
  obtain ⟨first, second, more, hperm, hfirst, hsecond⟩ :=
    exists_perm_cons_cons (not_le.mp hcontra)
  have heq := (hfree _ hperm).trans (hfree _ (hperm.trans (.swap _ _ _))).symm
  have hrows : DistinctRows (first :: second :: (more ++ rest)) :=
    hdistinct.perm (hperm.append_right rest)
  obtain ⟨code, emits, hrun⟩ := exists_issue_of_places sha256 participantId (more ++ rest)
    hfirst (not_hidden_of_places hsecond)
  obtain ⟨code', emits', hrun'⟩ := exists_issue_of_places sha256 participantId (more ++ rest)
    hsecond (not_hidden_of_places hfirst)
  rw [List.cons_append, List.cons_append, List.cons_append, List.cons_append, hrun, hrun'] at heq
  have hissue := (List.cons.inj (congrArg ScreenSemanticSignature.issues heq)).1
  simp only [DistinctRows, List.map_cons, List.nodup_cons, List.mem_cons, not_or] at hrows
  exact hrows.1.1 (congrArg ScreenConstructionIssue.sourceDataRow hissue)

/-- The only placed row of a tie that begins the tie, and the others, which are quiet. -/
theorem exists_others_of_screenInteractive (hrow : row ∈ group)
    (hsignal : row.signal = .screenInteractive)
    (hcount : (group.filter fun row => zhuPlaces row.signal).length ≤ 1) :
    ∃ others, group.Perm (row :: others) ∧ ∀ other ∈ others, zhuPlaces other.signal = false := by
  obtain ⟨others, hothers⟩ := exists_perm_cons hrow
  refine ⟨others, hothers, fun other hother => ?_⟩
  have hlength := (hothers.filter fun row => zhuPlaces row.signal).length_eq
  rw [List.filter_cons_of_pos (by simp [zhuPlaces, hsignal]), List.length_cons] at hlength
  have hnone := List.eq_nil_of_length_eq_zero
    (l := others.filter fun row => zhuPlaces row.signal) (by omega)
  simpa using List.filter_eq_nil_iff.mp hnone other hother

variable (sha256 participantId) in
theorem closedTie_of_orderFree (hne : ∀ group ∈ groups, group ≠ [])
    (hfree : ∀ group' groups', group.Perm group' → List.Forall₂ List.Perm groups groups' →
      (zhuScan sha256 participantId).run .idle (group' ++ groups'.flatten) =
        (zhuScan sha256 participantId).run .idle (group ++ groups.flatten))
    (hdistinct : DistinctRows (group ++ groups.flatten)) (hlength : 2 ≤ group.length) :
    ClosedTie group (groups.headD []) := by
  have hsame : List.Forall₂ List.Perm groups groups := List.forall₂_same.mpr fun _ _ => .refl _
  have hcount := length_places_le_of_orderFree (fun group' h => hfree group' groups h hsame)
    hdistinct
  refine ⟨hcount, fun row hrow hsignal => ?_⟩
  obtain ⟨others, hothers, hquiet⟩ := exists_others_of_screenInteractive hrow hsignal hcount
  obtain ⟨other, more, rfl⟩ : ∃ other more, others = other :: more := by
    have hcount := hothers.length_eq
    cases others with
    | nil => rw [List.length_singleton] at hcount; omega
    | cons other more => exact ⟨other, more, rfl⟩
  -- an unlock in the tie opens an interval when it comes next, and none when it comes first
  have htie : HiddenFree group := by
    intro hidden hmem hhidden
    have hmem : hidden ∈ other :: more := by
      rcases List.mem_cons.mp (hothers.mem_iff.mp hmem) with rfl | h
      · rw [hsignal] at hhidden; exact absurd hhidden (by decide)
      · exact h
    obtain ⟨remaining, hremaining⟩ := exists_perm_cons hmem
    have hperm : group.Perm (row :: hidden :: remaining) := hothers.trans (hremaining.cons row)
    have heq := (hfree _ groups hperm hsame).trans
      (hfree _ groups (hperm.trans (.swap _ _ _)) hsame).symm
    have hrows : DistinctRows (hidden :: row :: (remaining ++ groups.flatten)) :=
      hdistinct.perm ((hperm.trans (.swap _ _ _)).append_right _)
    rw [List.cons_append, List.cons_append, List.cons_append, List.cons_append,
      run_zhu_screenInteractive hsignal, run_zhu_hidden hhidden,
      Scan.run_cons_quiet (quiet_idle (hquiet hidden hmem))] at heq
    have hnamed := mem_intervalRows_within sha256 participantId hidden
      (show hidden.sourceDataRow ∈ [row.sourceDataRow, hidden.sourceDataRow] by simp) (remaining ++ groups.flatten)
    rw [heq] at hnamed
    exact (List.nodup_cons.mp hrows).1
      ((mem_of_mem_intervalRows hnamed).resolve_left List.not_mem_nil)
  have hfirst : (zhuScan sha256 participantId).run .idle (group ++ groups.flatten) =
      zhuNextNotHidden participantId row + (zhuScan sha256 participantId).run .idle
        (other :: (more ++ groups.flatten)) := by
    rw [← hfree _ groups hothers hsame, List.cons_append, run_zhu_screenInteractive hsignal,
      List.cons_append, run_zhu_waiting]
    exact htie other (hothers.mem_iff.mpr (by simp))
  have hlast : ∀ groups', List.Forall₂ List.Perm groups groups' →
      (zhuScan sha256 participantId).run .idle (group ++ groups.flatten) =
        (zhuScan sha256 participantId).run (.waiting row) groups'.flatten := by
    intro groups' hgroups
    have hperm : group.Perm ((other :: more) ++ [row]) :=
      hothers.trans (List.perm_append_singleton row (other :: more)).symm
    rw [← hfree _ groups' hperm hgroups, List.append_assoc,
      Scan.run_append_quiet fun x hx => quiet_idle (hquiet x hx), List.singleton_append,
      run_zhu_screenInteractive hsignal]
  refine ⟨htie, ?_⟩
  cases groups with
  | nil =>
      have heq := hfirst.symm.trans (hlast [] .nil)
      have hissues := (List.cons.inj (congrArg ScreenSemanticSignature.issues heq)).1
      have hcode := congrArg ScreenConstructionIssue.code hissues
      simp [issue] at hcode
  | cons next groups =>
      refine ⟨hne next List.mem_cons_self, fun hidden hmem hhidden => ?_⟩
      obtain ⟨remaining, hremaining⟩ := exists_perm_cons hmem
      have heq := hfirst.symm.trans (hlast ((hidden :: remaining) :: groups)
        (.cons hremaining (List.forall₂_same.mpr fun _ _ => .refl _)))
      have hflat : ((hidden :: remaining) :: groups).flatten =
          hidden :: (remaining ++ groups.flatten) := rfl
      rw [hflat, run_zhu_hidden hhidden] at heq
      have hissue : row.sourceDataRow ∈ ((zhuScan sha256 participantId).run
          (.within hidden [row.sourceDataRow, hidden.sourceDataRow])
            (remaining ++ groups.flatten)).issueRows := by
        rw [← heq]
        simp [zhuNextNotHidden, issue]
      have hperm : (group ++ (next :: groups).flatten).Perm
          (row :: (other :: more ++ (hidden :: (remaining ++ groups.flatten)))) :=
        hothers.append (hremaining.append_right _)
      have hrows := hdistinct.perm hperm
      have hnew := (List.nodup_cons.mp hrows).1
      rcases mem_of_mem_issueRows hissue with h | h
      · exact absurd h List.not_mem_nil
      · obtain ⟨x, hx, hsource⟩ := List.mem_map.mp h
        refine hnew (List.mem_map.mpr ⟨x, ?_, hsource⟩)
        exact List.mem_append_right _ (List.mem_cons_of_mem hidden hx)

/-- A row that waits after a group is the last row of the group. -/
theorem mem_of_foldl_zhuNext (hne : l ≠ []) (h : l.foldl zhuNext s = .waiting row) : row ∈ l := by
  obtain ⟨first, last, rfl⟩ := List.eq_nil_or_concat l |>.resolve_left hne
  rw [List.concat_eq_append, List.foldl_append, List.foldl_cons, List.foldl_nil] at h
  have hidle : zhuIdleNext last = .waiting row → row = last := by
    unfold zhuIdleNext
    split
    · exact fun h => (ZhuState.waiting.inj h).symm
    · exact (nomatch ·)
  have hlast : row = last := by
    cases hstate : first.foldl zhuNext s with
    | idle =>
        rw [hstate] at h
        exact hidle h
    | waiting before =>
        rw [hstate, zhuNext] at h
        split at h
        · exact nomatch h
        · exact hidle h
    | within start startRows =>
        rw [hstate, zhuNext] at h
        split at h <;> exact nomatch h
  simp [hlast]

variable (sha256 participantId) in
/-- When the order of tied rows does not matter, every tie is settled. -/
theorem settled_of_orderFree (hne : ∀ group ∈ groups, group ≠ [])
    (hdistinct : DistinctRows groups.flatten)
    (hstate : ∀ row, s = .waiting row → row.sourceDataRow ∉ groups.flatten.map (·.sourceDataRow))
    (hfree : ∀ groups', List.Forall₂ List.Perm groups groups' →
      (zhuScan sha256 participantId).run s groups'.flatten =
        (zhuScan sha256 participantId).run s groups.flatten) : ZhuSettled s groups := by
  induction groups generalizing s with
  | nil => trivial
  | cons group groups ih =>
      obtain ⟨hgroupNe, hrestNe⟩ := List.forall_mem_cons.mp hne
      -- reordering the first tie alone or the later ties alone keeps the output
      have hboth : ∀ group' groups', group.Perm group' → List.Forall₂ List.Perm groups groups' →
          (zhuScan sha256 participantId).run s (group' ++ groups'.flatten) =
            (zhuScan sha256 participantId).run s (group ++ groups.flatten) :=
        fun group' groups' hgroup hgroups => hfree (group' :: groups') (.cons hgroup hgroups)
      have hsame : List.Forall₂ List.Perm groups groups := List.forall₂_same.mpr fun _ _ => .refl _
      refine ⟨fun hlength => ?_, ih hrestNe ?_ ?_ fun groups' hgroups => ?_⟩
      · cases s with
        | idle => exact closedTie_of_orderFree _ _ hrestNe hboth hdistinct hlength
        | waiting row =>
            have hrows : DistinctRows (row :: (group ++ groups.flatten)) :=
              List.nodup_cons.mpr ⟨hstate row rfl, hdistinct⟩
            have htie := hiddenFree_of_orderFree_waiting
              (fun group' h => hboth group' groups h hsame) hrows hlength
            refine ⟨htie, closedTie_of_orderFree sha256 participantId
              hrestNe (fun group' groups' hgroup hgroups => ?_)
              hdistinct hlength⟩
            -- the waiting row is settled the same way, so the rest is as in the idle state
            have hfirst : ∀ {l : List RawB05Event} (more), group.Perm l →
                (zhuScan sha256 participantId).run (.waiting row) (l ++ more) =
                  zhuNextNotHidden participantId row +
                    (zhuScan sha256 participantId).run .idle (l ++ more) := by
              intro l more hl
              cases l with
              | nil => exact absurd hl.eq_nil hgroupNe
              | cons next l =>
                  exact run_zhu_waiting (htie next (hl.mem_iff.mpr List.mem_cons_self))
            have heq := hboth group' groups' hgroup hgroups
            rw [hfirst _ hgroup, hfirst _ (List.Perm.refl group)] at heq
            exact add_left_cancel heq
        | within start startRows =>
            exact within_of_orderFree (fun group' h => hboth group' groups h hsame) hdistinct
      · exact (List.nodup_append.mp (by simpa [DistinctRows] using hdistinct)).2.1
      · intro row hrow hmem
        obtain ⟨x, hx, hsource⟩ := List.mem_map.mp hmem
        rw [DistinctRows, List.flatten_cons, List.map_append, List.nodup_append] at hdistinct
        exact hdistinct.2.2 _ (List.mem_map_of_mem (mem_of_foldl_zhuNext hgroupNe hrow)) _
          (List.mem_map_of_mem hx) hsource.symm
      · -- with the first tie fixed, its output cancels
        exact Scan.run_append_cancel (hboth group groups' (.refl _) hgroups)

end Decisive

end Chronicle.Screens
