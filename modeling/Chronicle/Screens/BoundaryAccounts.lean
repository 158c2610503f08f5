import Chronicle.Library.Sha256
import Chronicle.Screens.SpanOrder
import Mathlib.Data.List.Induction

/-!
# Every boundary row is accounted for

The sessions and glances use each row that begins or ends one in exactly one interval, or report it
once. Under Zhu's rule a closing row closes the open session, or is an orphan.
-/

namespace Chronicle.Screens

open Chronicle.Library Chronicle.Library.Cuts

variable {sha256 : List UInt8 → List UInt8} {participantId : String} {rows : List RawB05Event}

/-! ## Sessions and glances -/

/-- The rows that an interval starts and stops with. -/
def ScreenIntervalEvidence.boundaryRows (interval : ScreenIntervalEvidence) : List Nat :=
  interval.startBoundarySourceRow :: interval.stopBoundarySourceRow.toList

/-- The rows that the intervals start and stop with. -/
def ScreenSemanticSignature.boundaryRows (signature : ScreenSemanticSignature) : List Nat :=
  signature.intervals.flatMap ScreenIntervalEvidence.boundaryRows

/-- The source row of an endpoint. -/
def ParryEndpoint.source (endpoint : ParryEndpoint) : Nat := endpoint.row.sourceDataRow

/-- A pass keeps or reports each endpoint. -/
theorem perm_kept_issues (pass : ParryPass) (l : List ParryEndpoint) :
    ((pass.kept l).map (·.source) ++
      (pass.issues participantId l).map (·.sourceDataRow)).Perm (l.map (·.source)) := by
  have hcodes : ∀ entries : List (ParryEndpoint × Option ScreenConstructionIssueCode),
      (((entries.filter (·.2.isNone)).map Prod.fst).map (·.source) ++
        (entries.filterMap fun entry => entry.2.map
          (issue participantId entry.1.row.sourceDataRow)).map (·.sourceDataRow)).Perm
        ((entries.map Prod.fst).map (·.source)) := by
    intro entries
    induction entries with
    | nil => exact .refl _
    | cons entry entries ih =>
        obtain ⟨endpoint, code⟩ := entry
        cases code with
        | none => exact ih.cons _
        | some code => exact List.perm_middle.trans (ih.cons _)
  have h := hcodes (pass.codes none l)
  rwa [← kept_eq_map_filter, map_fst_codes] at h

/-- The intervals start and stop with the survivors. -/
theorem boundaryRows_parryIntervals {l : List ParryEndpoint} (h : Pairs l) :
    (parryIntervals sha256 participantId l).flatMap ScreenIntervalEvidence.boundaryRows =
      l.map (·.source) := by
  induction h with
  | nil => rfl
  | @cons start stop rest hstart hstop hkind _ ih =>
      rw [parryIntervals_pair hstop, parryInterval, if_pos ⟨hstart, hkind⟩, Option.toList_some,
        List.singleton_append, List.flatMap_cons, ih]
      rfl

theorem perm_parryPartition (l : List ParryEndpoint) :
    ((parryPartition sha256 participantId l).boundaryRows ++
      (parryPartition sha256 participantId l).issueRows).Perm (l.map (·.source)) := by
  have hboundary : (parryPartition sha256 participantId l).boundaryRows =
      (sessionPass.kept (glancePass.kept l)).map (·.source) :=
    boundaryRows_parryIntervals (pairs_survivors l)
  have hissues : (parryPartition sha256 participantId l).issueRows =
      (glancePass.issues participantId l).map (·.sourceDataRow) ++
        (sessionPass.issues participantId (glancePass.kept l)).map (·.sourceDataRow) :=
    List.map_append
  rw [hboundary, hissues]
  calc
    _ = (sessionPass.kept (glancePass.kept l)).map (·.source) ++
          (glancePass.issues participantId l).map (·.sourceDataRow) ++
          (sessionPass.issues participantId (glancePass.kept l)).map (·.sourceDataRow) :=
        (List.append_assoc _ _ _).symm
    List.Perm _ ((sessionPass.kept (glancePass.kept l)).map (·.source) ++
          (sessionPass.issues participantId (glancePass.kept l)).map (·.sourceDataRow) ++
          (glancePass.issues participantId l).map (·.sourceDataRow)) := by
        rw [List.append_assoc, List.append_assoc]
        exact List.perm_append_comm.append_left _
    List.Perm _ ((glancePass.kept l).map (·.source) ++
          (glancePass.issues participantId l).map (·.sourceDataRow)) :=
        (perm_kept_issues sessionPass (glancePass.kept l)).append_right _
    List.Perm _ (l.map (·.source)) := perm_kept_issues glancePass l

/-- The rows that begin or end a session or a glance are the boundaries and the issues, each
once. -/
theorem perm_constructParryTothPartition :
    ((constructParryTothPartition sha256 participantId rows).boundaryRows ++
      (constructParryTothPartition sha256 participantId rows).issueRows).Perm
      ((rows.filter fun row => parryPlaces row.signal).map (·.sourceDataRow)) := by
  have hrows := congrArg (List.map (·.sourceDataRow))
    (map_row_parryEndpoints none (rows.filter fun row => parryReads row.signal))
  have hfilter : ((rows.filter fun row => parryReads row.signal).filter fun row =>
      parryPlaces row.signal) = rows.filter fun row => parryPlaces row.signal := by
    rw [List.filter_filter]
    refine List.filter_congr fun row _ => ?_
    unfold parryPlaces parryReads
    cases row.signal <;> rfl
  rw [hfilter, List.map_map] at hrows
  rw [← hrows]
  exact perm_parryPartition _

theorem count_parry (hrows : InSourceOrder rows) {row : RawB05Event} (hrow : row ∈ rows)
    (hplaces : parryPlaces row.signal = true) :
    (constructParryTothPartition sha256 participantId rows).boundaryRows.count row.sourceDataRow +
      (constructParryTothPartition sha256 participantId rows).issueRows.count
        row.sourceDataRow = 1 := by
  have hnodup : ((rows.filter fun row => parryPlaces row.signal).map (·.sourceDataRow)).Nodup :=
    (hrows.sublist List.filter_sublist).nodup
  have hmem : row.sourceDataRow ∈
      (rows.filter fun row => parryPlaces row.signal).map (·.sourceDataRow) :=
    List.mem_map_of_mem (List.mem_filter.mpr ⟨hrow, hplaces⟩)
  rw [← List.count_append, perm_constructParryTothPartition.count_eq]
  exact List.count_eq_one_of_mem hnodup hmem

/-! ## Zhu's rule -/

/-- The rows that an interval stops with. -/
def ScreenSemanticSignature.stopRows (signature : ScreenSemanticSignature) : List Nat :=
  signature.intervals.filterMap (·.stopBoundarySourceRow)

/-- The closing rows that were met with no session open. -/
def ScreenSemanticSignature.orphanRows (signature : ScreenSemanticSignature) : List Nat :=
  (signature.issues.filter (·.code = .zhuOrphanStop)).map (·.sourceDataRow)

@[simp]
theorem stopRows_add (first second : ScreenSemanticSignature) :
    (first + second).stopRows = first.stopRows ++ second.stopRows := List.filterMap_append

@[simp]
theorem orphanRows_add (first second : ScreenSemanticSignature) :
    (first + second).orphanRows = first.orphanRows ++ second.orphanRows := by
  simp [ScreenSemanticSignature.orphanRows]

/-- After these rows a session is open under Zhu's rule: since the last closing row, a screen row
was directly followed by an unlock. -/
def ZhuOpenAfter (rows : List RawB05Event) : Prop :=
  ∃ earlier interactive hidden since, rows = earlier ++ interactive :: hidden :: since ∧
    interactive.signal = .screenInteractive ∧ hidden.signal = .keyguardHidden ∧
    ∀ row ∈ since, zhuCloses row.signal = false

/-- A session is open in the state. -/
def ZhuState.isWithin : ZhuState → Bool
  | .within _ _ => true
  | .idle | .waiting _ => false

/-- What the state says of the rows that led to it. -/
def ZhuState.Knows (rows : List RawB05Event) : ZhuState → Prop
  | .idle => ¬ZhuOpenAfter rows ∧ ∀ row ∈ rows.getLast?, row.signal ≠ .screenInteractive
  | .waiting before =>
      ¬ZhuOpenAfter rows ∧ rows.getLast? = some before ∧ before.signal = .screenInteractive
  | .within _ _ => ZhuOpenAfter rows

/-- One more row opens a session only as an unlock directly after a screen row. -/
theorem zhuOpenAfter_append_singleton {row : RawB05Event} (h : ZhuOpenAfter (rows ++ [row])) :
    (ZhuOpenAfter rows ∧ zhuCloses row.signal = false) ∨
      row.signal = .keyguardHidden ∧
        ∃ before ∈ rows.getLast?, before.signal = .screenInteractive := by
  obtain ⟨earlier, interactive, hidden, since, hsplit, hinteractive, hhidden, hsince⟩ := h
  -- the last row is the unlock itself, or it comes after the unlock
  rcases List.eq_nil_or_concat since with rfl | ⟨since, last, rfl⟩
  · have hlast : rows ++ [row] = (earlier ++ [interactive]) ++ [hidden] := by
      rw [hsplit, List.append_assoc]
      rfl
    obtain ⟨rfl, hrow⟩ := List.append_inj' hlast rfl
    obtain rfl := List.singleton_inj.mp hrow
    exact .inr ⟨hhidden, interactive, List.getLast?_concat, hinteractive⟩
  · rw [List.concat_eq_append, ← List.cons_append, ← List.cons_append,
      ← List.append_assoc] at hsplit
    obtain ⟨rfl, hrow⟩ := List.append_inj' hsplit rfl
    obtain rfl := List.singleton_inj.mp hrow
    rw [List.concat_eq_append] at hsince
    refine .inl ⟨⟨earlier, interactive, hidden, since, rfl, hinteractive, hhidden, ?_⟩, ?_⟩
    · exact fun x hx => hsince x (List.mem_append_left _ hx)
    · exact hsince row (List.mem_append_right _ List.mem_cons_self)

theorem ZhuOpenAfter.append_singleton {row : RawB05Event} (h : ZhuOpenAfter rows)
    (hrow : zhuCloses row.signal = false) : ZhuOpenAfter (rows ++ [row]) := by
  obtain ⟨earlier, interactive, hidden, since, rfl, hinteractive, hhidden, hsince⟩ := h
  refine ⟨earlier, interactive, hidden, since ++ [row], by simp, hinteractive, hhidden, ?_⟩
  intro x hx
  rcases List.mem_append.mp hx with hx | hx
  · exact hsince x hx
  · rwa [List.mem_singleton.mp hx]

/-- A row that opens nothing leaves no session open. -/
theorem knows_zhuIdleNext {row : RawB05Event} (h : ¬ZhuOpenAfter (rows ++ [row])) :
    (zhuIdleNext row).Knows (rows ++ [row]) := by
  have hlast : (rows ++ [row]).getLast? = some row := List.getLast?_concat
  unfold zhuIdleNext
  split
  · rename_i hinteractive
    exact ⟨h, hlast, hinteractive⟩
  · rename_i hinteractive
    refine ⟨h, ?_⟩
    rw [hlast]
    rintro _ ⟨⟩
    exact hinteractive

/-- One row keeps what the state says true. -/
theorem ZhuState.Knows.next {state : ZhuState} (h : state.Knows rows) (row : RawB05Event) :
    (zhuNext state row).Knows (rows ++ [row]) := by
  cases state with
  | idle =>
      obtain ⟨hclosed, hlast⟩ := h
      -- only an unlock after a screen row could open, and the last row is no screen row
      refine knows_zhuIdleNext fun hopen => ?_
      rcases zhuOpenAfter_append_singleton hopen with ⟨hopen, _⟩ | ⟨_, before, hbefore, hsignal⟩
      · exact hclosed hopen
      · exact hlast before hbefore hsignal
  | waiting before =>
      obtain ⟨hclosed, hlast, hsignal⟩ := h
      by_cases hhidden : row.signal = .keyguardHidden
      · rw [zhuNext, if_pos hhidden]
        obtain ⟨earlier, rfl⟩ := List.getLast?_eq_some_iff.mp hlast
        exact ⟨earlier, before, row, [], by simp, hsignal, hhidden, by simp⟩
      · rw [zhuNext, if_neg hhidden]
        refine knows_zhuIdleNext fun hopen => ?_
        rcases zhuOpenAfter_append_singleton hopen with ⟨hopen, _⟩ | ⟨hrow, _⟩
        · exact hclosed hopen
        · exact hhidden hrow
  | within start startRows =>
      by_cases hcloses : zhuCloses row.signal = true
      · rw [zhuNext, if_pos hcloses]
        have hclosed : ¬ZhuOpenAfter (rows ++ [row]) := by
          intro hopen
          rcases zhuOpenAfter_append_singleton hopen with ⟨_, hrow⟩ | ⟨hrow, _⟩
          · rw [hcloses] at hrow
            exact Bool.noConfusion hrow
          · rw [not_closes_of_keyguardHidden hrow] at hcloses
            exact Bool.noConfusion hcloses
        have hidle := knows_zhuIdleNext hclosed
        rwa [zhuIdleNext, if_neg] at hidle
        intro hinteractive
        rw [not_closes_of_screenInteractive hinteractive] at hcloses
        exact Bool.noConfusion hcloses
      · rw [zhuNext, if_neg hcloses]
        exact ZhuOpenAfter.append_singleton h (by simpa using hcloses)

/-- The state after the rows knows whether a session is open. -/
theorem knows_foldl_zhuNext (rows : List RawB05Event) :
    (rows.foldl zhuNext .idle).Knows rows := by
  induction rows using List.reverseRecOn with
  | nil => exact ⟨fun ⟨_, _, _, _, h, _⟩ => by simp at h, by simp⟩
  | append_singleton rows row ih =>
      rw [List.foldl_append]
      exact ih.next row

theorem isWithin_foldl_iff (rows : List RawB05Event) :
    (rows.foldl zhuNext .idle).isWithin = true ↔ ZhuOpenAfter rows := by
  have h := knows_foldl_zhuNext rows
  cases hstate : rows.foldl zhuNext .idle with
  | idle =>
      rw [hstate] at h
      exact iff_of_false Bool.false_ne_true h.1
  | waiting before =>
      rw [hstate] at h
      exact iff_of_false Bool.false_ne_true h.1
  | within start startRows =>
      rw [hstate] at h
      exact iff_of_true rfl h

section Emitted

variable {row : RawB05Event} {state : ZhuState}

theorem orphanRows_zhuIdleEmits : (zhuIdleEmits participantId row).orphanRows =
    if zhuCloses row.signal then [row.sourceDataRow] else [] := by
  unfold zhuIdleEmits
  split <;> rfl

/-- A session ends with the closing row that is met while it is open. -/
theorem stopRows_zhuEmits : (zhuEmits sha256 participantId state row).stopRows =
    if state.isWithin ∧ zhuCloses row.signal then [row.sourceDataRow] else [] := by
  have hidle : (zhuIdleEmits participantId row).stopRows = [] := by
    rw [ScreenSemanticSignature.stopRows, intervals_zhuIdleEmits, List.filterMap_nil]
  cases state with
  | idle => simpa [zhuEmits, ZhuState.isWithin] using hidle
  | waiting before =>
      by_cases hhidden : row.signal = .keyguardHidden
      · simp [zhuEmits, hhidden, ZhuState.isWithin, ScreenSemanticSignature.stopRows]
      · rw [zhuEmits, if_neg hhidden, stopRows_add, hidle]
        simp [ZhuState.isWithin, zhuNextNotHidden, ScreenSemanticSignature.stopRows]
  | within start startRows =>
      by_cases hcloses : zhuCloses row.signal = true
      · rw [zhuEmits, if_pos hcloses, if_pos ⟨rfl, hcloses⟩]
        rfl
      · simp [zhuEmits, hcloses, ScreenSemanticSignature.stopRows]

/-- A closing row that is met with no session open is an orphan. -/
theorem orphanRows_zhuEmits : (zhuEmits sha256 participantId state row).orphanRows =
    if ¬state.isWithin ∧ zhuCloses row.signal then [row.sourceDataRow] else [] := by
  cases state with
  | idle => simpa [zhuEmits, ZhuState.isWithin] using orphanRows_zhuIdleEmits
  | waiting before =>
      by_cases hhidden : row.signal = .keyguardHidden
      · have hcloses := not_closes_of_keyguardHidden hhidden
        rw [zhuEmits, if_pos hhidden, if_neg (by simp [hcloses])]
        rfl
      · rw [zhuEmits, if_neg hhidden, orphanRows_add, orphanRows_zhuIdleEmits]
        simp [ZhuState.isWithin, zhuNextNotHidden, ScreenSemanticSignature.orphanRows, issue]
  | within start startRows =>
      by_cases hcloses : zhuCloses row.signal = true
      · simp [zhuEmits, hcloses, ZhuState.isWithin, ScreenSemanticSignature.orphanRows]
      · simp [zhuEmits, hcloses, ScreenSemanticSignature.orphanRows]

/-- A row emits nothing about another one. -/
theorem count_zhuEmits_of_ne {source : Nat} (h : source ≠ row.sourceDataRow) :
    (zhuEmits sha256 participantId state row).stopRows.count source = 0 ∧
      (zhuEmits sha256 participantId state row).orphanRows.count source = 0 := by
  have hnot : source ∉ [row.sourceDataRow] := fun hmem => h (List.mem_singleton.mp hmem)
  rw [stopRows_zhuEmits, orphanRows_zhuEmits]
  constructor
  · split
    · exact List.count_eq_zero_of_not_mem hnot
    · rfl
  · split
    · exact List.count_eq_zero_of_not_mem hnot
    · rfl

/-- A row that is not read is neither. -/
theorem count_run_zhu_of_notMem {source : Nat} (h : source ∉ rows.map (·.sourceDataRow)) :
    ((zhuScan sha256 participantId).run state rows).stopRows.count source = 0 ∧
      ((zhuScan sha256 participantId).run state rows).orphanRows.count source = 0 := by
  induction rows generalizing state with
  | nil => cases state <;> exact ⟨rfl, rfl⟩
  | cons row rows ih =>
      rw [List.map_cons, List.mem_cons, not_or] at h
      obtain ⟨hne, h⟩ := h
      obtain ⟨hstop, horphan⟩ := ih h
      obtain ⟨hemitStop, hemitOrphan⟩ := count_zhuEmits_of_ne hne
      rw [run_zhu_cons, stopRows_add, orphanRows_add, List.count_append, List.count_append, hstop,
        horphan, hemitStop, hemitOrphan]
      exact ⟨rfl, rfl⟩

/-- A closing row ends the session that is open when it is met, or is an orphan. -/
theorem count_run_zhu (state : ZhuState) {before after : List RawB05Event}
    (hcloses : zhuCloses row.signal = true)
    (hnodup : ((before ++ row :: after).map (·.sourceDataRow)).Nodup) :
    ((zhuScan sha256 participantId).run state (before ++ row :: after)).stopRows.count
        row.sourceDataRow = (if (before.foldl zhuNext state).isWithin then 1 else 0) ∧
      ((zhuScan sha256 participantId).run state (before ++ row :: after)).orphanRows.count
        row.sourceDataRow = if (before.foldl zhuNext state).isWithin then 0 else 1 := by
  induction before generalizing state with
  | nil =>
      obtain ⟨hfirst, _⟩ := List.nodup_cons.mp hnodup
      obtain ⟨hstop, horphan⟩ := count_run_zhu_of_notMem hfirst
      rw [List.nil_append, run_zhu_cons, stopRows_add, orphanRows_add, List.count_append,
        List.count_append, hstop, horphan, stopRows_zhuEmits, orphanRows_zhuEmits]
      cases hwithin : state.isWithin <;> simp [hwithin, hcloses]
  | cons first before ih =>
      rw [List.cons_append, List.map_cons, List.nodup_cons] at hnodup
      obtain ⟨hfirst, hnodup⟩ := hnodup
      have hne : row.sourceDataRow ≠ first.sourceDataRow := by
        intro heq
        rw [← heq] at hfirst
        exact hfirst (List.mem_map_of_mem (List.mem_append_right _ List.mem_cons_self))
      obtain ⟨hemitStop, hemitOrphan⟩ := count_zhuEmits_of_ne hne
      rw [List.cons_append, run_zhu_cons, stopRows_add, orphanRows_add, List.count_append,
        List.count_append, hemitStop, hemitOrphan, zero_add, zero_add, List.foldl_cons]
      exact ih (zhuNext state first) hnodup

end Emitted

/-! ## All rules -/

/-- Over rows in source order every rule returns disjoint intervals in their order, of which at most
the last is open. Among the sessions and glances each row that begins or ends one is a boundary once
or an issue once. Under Zhu's rule a closing row ends one session, or is one orphan when no session
is open. The unlock rules start at the first unlock after the last close and stop at the first
closing row after it. -/
theorem constructPartition_accounts (sha256 : List UInt8 → List UInt8) (participantId : String)
    (hrows : InSourceOrder rows) :
    (∀ strategy, OrderedIntervals
      (constructPartition sha256 participantId strategy rows).intervals) ∧
    (∀ row ∈ rows, parryPlaces row.signal = true →
      (constructParryTothPartition sha256 participantId rows).boundaryRows.count row.sourceDataRow +
        (constructParryTothPartition sha256 participantId rows).issueRows.count
          row.sourceDataRow = 1) ∧
    (∀ before row after, rows = before ++ row :: after → zhuCloses row.signal = true →
      let signature := constructZhuPartition sha256 participantId rows
      (¬ZhuOpenAfter before → signature.orphanRows.count row.sourceDataRow = 1 ∧
        signature.stopRows.count row.sourceDataRow = 0) ∧
      (ZhuOpenAfter before → signature.orphanRows.count row.sourceDataRow = 0 ∧
        signature.stopRows.count row.sourceDataRow = 1)) ∧
    ∀ strategy, strategy = .unlockToLockV1 ∨ strategy = .unlockToOffOrLockV1 →
      ∃ spans, FirstSpans (fun row => row.signal = .keyguardHidden)
          (fun row => directCloses strategy row.signal = true) rows spans ∧
        List.Forall₂ ScreenIntervalEvidence.Spans
          (constructDirectUnlockPartition sha256 participantId strategy rows).intervals spans := by
  refine ⟨orderedIntervals_constructPartition hrows, ?_, ?_, ?_⟩
  · intro row hrow hplaces
    exact count_parry hrows hrow hplaces
  · rintro before row after rfl hcloses
    obtain ⟨hstop, horphan⟩ := count_run_zhu .idle hcloses hrows.nodup
    rw [constructZhuPartition_eq]
    constructor
    · intro hclosed
      rw [← isWithin_foldl_iff] at hclosed
      exact ⟨by rw [horphan, if_neg hclosed], by rw [hstop, if_neg hclosed]⟩
    · intro hopen
      rw [← isWithin_foldl_iff] at hopen
      exact ⟨by rw [horphan, if_pos hopen], by rw [hstop, if_pos hopen]⟩
  · intro strategy _
    exact (firstSpans_direct sha256 participantId hrows.stamped).1

/-- A screen that goes on, is unlocked, and goes off. -/
def unlockedRows : List RawB05Event :=
  [⟨"P1", some 10, 1, "Screen Interactive", .screenInteractive⟩,
    ⟨"P1", some 10, 2, "Keyguard Hidden", .keyguardHidden⟩,
    ⟨"P1", some 30, 3, "Screen Non-interactive", .screenNonInteractive⟩]

theorem constructPartition_accounts_unlockedRows :
    (∀ strategy, OrderedIntervals
      (constructPartition Sha256.sha256 "P1" strategy unlockedRows).intervals) ∧
    (constructZhuPartition Sha256.sha256 "P1" unlockedRows).stopRows.count 3 = 1 := by
  have hrows : InSourceOrder unlockedRows := ⟨by decide, by decide⟩
  obtain ⟨hordered, _, hzhu, _⟩ := constructPartition_accounts Sha256.sha256 "P1" hrows
  refine ⟨hordered, ?_⟩
  have hopen : ZhuOpenAfter (unlockedRows.take 2) :=
    ⟨[], _, _, [], rfl, rfl, rfl, fun _ h => absurd h List.not_mem_nil⟩
  exact ((hzhu (unlockedRows.take 2) _ [] rfl rfl).2 hopen).2

end Chronicle.Screens
