import Chronicle.Library.Ties
import Chronicle.Screens.Partitions

/-!
# Ties under the direct unlock rules

Two rows of a tie that can be exchanged unnoticed are both without effect. So when no exchange of
neighbours is noticed, no row of a larger tie has an effect, in any order.
-/

namespace Chronicle.Screens

open Chronicle.Library Chronicle.Library.Ties

/-- The row opens or closes an interval of the direct rules. -/
def directReads (strategy : Strategy) (signal : AndroidUsageSignal) : Bool :=
  signal = .keyguardHidden ∨ directCloses strategy signal

section

variable {sha256 : List UInt8 → List UInt8} {participantId : String} {strategy : Strategy}
variable {current : Option RawB05Event} {start row x y : RawB05Event} {l : List RawB05Event}
variable {source : Nat}

/-- The interval from `start` to `stop`. -/
def directInterval (sha256 : List UInt8 → List UInt8) (participantId : String)
    (strategy : Strategy) (start stop : RawB05Event) : ScreenIntervalEvidence :=
  makeScreenInterval sha256 participantId strategy .session start (some stop)
    [start.sourceDataRow] [stop.sourceDataRow]
    (if stop.signal = .keyguardShown then .keyguardShown else .screenNonInteractive)

theorem not_hidden_of_directCloses (h : directCloses strategy row.signal = true) :
    row.signal ≠ .keyguardHidden := by
  intro hsignal
  simp [directCloses, hsignal] at h

theorem run_direct_opens (h : row.signal = .keyguardHidden) :
    (directScan sha256 participantId strategy).run none (row :: l) =
      (directScan sha256 participantId strategy).run (some row) l := by
  rw [Scan.run_cons]
  simp only [directScan, h, if_true, zero_add]

theorem run_direct_closes (h : directCloses strategy row.signal = true) :
    (directScan sha256 participantId strategy).run (some start) (row :: l) =
      .ofInterval (directInterval sha256 participantId strategy start row) +
        (directScan sha256 participantId strategy).run none l := by
  rw [Scan.run_cons]
  simp only [directScan, not_hidden_of_directCloses h, h, if_true, if_false]
  rfl

theorem quiet_direct_closed (h : row.signal ≠ .keyguardHidden) :
    (directScan sha256 participantId strategy).Quiet none row := by
  simp only [Scan.Quiet, directScan, h, if_false]
  split <;> rfl

theorem quiet_direct_open (h : directCloses strategy row.signal = false) :
    (directScan sha256 participantId strategy).Quiet (some start) row := by
  by_cases hhidden : row.signal = .keyguardHidden <;> simp [Scan.Quiet, directScan, h, hhidden]

/-- A row that neither opens nor closes has no effect. -/
theorem quiet_of_not_directReads (current : Option RawB05Event)
    (h : directReads strategy row.signal = false) :
    (directScan sha256 participantId strategy).Quiet current row := by
  simp only [directReads, Bool.decide_or, Bool.or_eq_false_iff, decide_eq_false_iff_not,
    Bool.decide_eq_true] at h
  cases current with
  | none => exact quiet_direct_closed h.1
  | some start => exact quiet_direct_open h.2

theorem directCloses_of_reads (h : directReads strategy row.signal = true)
    (hnot : row.signal ≠ .keyguardHidden) : directCloses strategy row.signal = true := by
  simpa [directReads, hnot] using h

/-! ## What the intervals name -/

/-- An interval names only the open row and rows that are read. -/
theorem mem_of_mem_intervalRows_direct
    (h : source ∈ ((directScan sha256 participantId strategy).run current l).intervalRows) :
    source ∈ current.toList.map (·.sourceDataRow) ∨ source ∈ l.map (·.sourceDataRow) := by
  induction l generalizing current with
  | nil =>
      cases current with
      | none => exact absurd h List.not_mem_nil
      | some start =>
          rcases List.mem_append.mp (by simpa [directScan] using h) with h | h
          · exact .inl (by simpa using mem_sortDedup.mp h)
          · exact absurd (mem_sortDedup.mp h) List.not_mem_nil
  | cons row l ih =>
      rw [List.map_cons, List.mem_cons]
      cases current with
      | none =>
          by_cases hhidden : row.signal = .keyguardHidden
          · rw [run_direct_opens hhidden] at h
            exact .inr ((ih h).imp (by simp) id)
          · rw [Scan.run_cons_quiet (quiet_direct_closed hhidden)] at h
            exact (ih h).imp id .inr
      | some start =>
          by_cases hcloses : directCloses strategy row.signal = true
          · rw [run_direct_closes hcloses, ScreenSemanticSignature.intervalRows_add,
              ScreenSemanticSignature.intervalRows_ofInterval] at h
            simp only [List.mem_append] at h
            rcases h with (h | h) | h
            · exact .inl (by simpa using mem_sortDedup.mp h)
            · exact .inr (.inl (List.mem_singleton.mp (mem_sortDedup.mp h)))
            · exact .inr (.inr ((ih h).resolve_left List.not_mem_nil))
          · rw [Scan.run_cons_quiet (quiet_direct_open (by simpa using hcloses))] at h
            exact (ih h).imp id .inr

variable (sha256 participantId strategy) in
/-- The row that opens an interval is named by it. -/
theorem mem_intervalRows_direct (start : RawB05Event) (l : List RawB05Event) :
    start.sourceDataRow ∈
      ((directScan sha256 participantId strategy).run (some start) l).intervalRows := by
  induction l with
  | nil =>
      have hnamed : start.sourceDataRow ∈ sortDedup [start.sourceDataRow] := by simp
      exact List.mem_append_left _ (List.mem_append_left _ hnamed)
  | cons row l ih =>
      by_cases hcloses : directCloses strategy row.signal = true
      · have hnamed : start.sourceDataRow ∈
            (directInterval sha256 participantId strategy start row).startSourceRows :=
          mem_sortDedup.mpr List.mem_cons_self
        rw [run_direct_closes hcloses]
        simp [hnamed]
      · rwa [Scan.run_cons_quiet (quiet_direct_open (by simpa using hcloses))]

/-! ## Exchanges -/

/-- An unlock cannot be exchanged unnoticed with another row while no interval is open. -/
theorem not_opens_of_exchange (hx : x.signal = .keyguardHidden)
    (hy : directReads strategy y.signal = true) (hdistinct : DistinctRows (x :: y :: l)) :
    (directScan sha256 participantId strategy).run none (x :: y :: l) ≠
      (directScan sha256 participantId strategy).run none (y :: x :: l) := by
  intro heq
  simp only [DistinctRows, List.map_cons, List.nodup_cons, List.mem_cons, not_or] at hdistinct
  obtain ⟨⟨hne, hxNew⟩, hyNew, -⟩ := hdistinct
  rw [run_direct_opens hx] at heq
  by_cases hhidden : y.signal = .keyguardHidden
  · rw [Scan.run_cons_quiet (quiet_direct_open (by simp [directCloses, hhidden])),
      run_direct_opens hhidden,
      Scan.run_cons_quiet (quiet_direct_open (by simp [directCloses, hx]))] at heq
    have hnamed := mem_intervalRows_direct sha256 participantId strategy x l
    rw [heq] at hnamed
    rcases mem_of_mem_intervalRows_direct hnamed with h | h
    · exact hne (by simpa using h)
    · exact hxNew h
  · have hcloses := directCloses_of_reads hy hhidden
    rw [run_direct_closes hcloses, Scan.run_cons_quiet (quiet_direct_closed hhidden),
      run_direct_opens hx] at heq
    have hnamed : y.sourceDataRow ∈
        ((directScan sha256 participantId strategy).run (some x) l).intervalRows := by
      have hstop : y.sourceDataRow ∈
          (directInterval sha256 participantId strategy x y).stopSourceRows :=
        mem_sortDedup.mpr List.mem_cons_self
      rw [← heq]
      simp [hstop]
    rcases mem_of_mem_intervalRows_direct hnamed with h | h
    · exact hne (List.mem_singleton.mp h).symm
    · exact hyNew h

/-- A closing row cannot be exchanged unnoticed with another row while an interval is open. -/
theorem not_closes_of_exchange (hx : directCloses strategy x.signal = true)
    (hy : directReads strategy y.signal = true) (hdistinct : DistinctRows (x :: y :: l)) :
    (directScan sha256 participantId strategy).run (some start) (x :: y :: l) ≠
      (directScan sha256 participantId strategy).run (some start) (y :: x :: l) := by
  intro heq
  simp only [DistinctRows, List.map_cons, List.nodup_cons, List.mem_cons, not_or] at hdistinct
  obtain ⟨⟨hne, -⟩, hyNew, -⟩ := hdistinct
  rw [run_direct_closes hx] at heq
  by_cases hcloses : directCloses strategy y.signal = true
  · rw [run_direct_closes hcloses] at heq
    have hfirst := (List.cons.inj (congrArg ScreenSemanticSignature.intervals heq)).1
    have hboundary := congrArg ScreenIntervalEvidence.stopBoundarySourceRow hfirst
    exact hne (Option.some.inj hboundary)
  · have hhidden : y.signal = .keyguardHidden := by
      by_contra hnot
      exact hcloses (directCloses_of_reads hy hnot)
    rw [run_direct_opens hhidden, Scan.run_cons_quiet (quiet_direct_open (by simpa using hcloses)),
      run_direct_closes hx] at heq
    have hnamed := mem_intervalRows_direct sha256 participantId strategy y l
    rw [add_left_cancel heq] at hnamed
    exact hyNew ((mem_of_mem_intervalRows_direct hnamed).resolve_left List.not_mem_nil)

/-- Rows that can be exchanged unnoticed are without effect. -/
theorem quiet_of_exchange (hx : directReads strategy x.signal = true)
    (hy : directReads strategy y.signal = true) (hdistinct : DistinctRows (x :: y :: l))
    (heq : (directScan sha256 participantId strategy).run current (y :: x :: l) =
      (directScan sha256 participantId strategy).run current (x :: y :: l)) :
    (directScan sha256 participantId strategy).Quiet current x ∧
      (directScan sha256 participantId strategy).Quiet current y := by
  have hdistinct' : DistinctRows (y :: x :: l) := hdistinct.perm (.swap _ _ _)
  cases current with
  | none =>
      refine ⟨quiet_direct_closed fun h => ?_, quiet_direct_closed fun h => ?_⟩
      · exact not_opens_of_exchange h hy hdistinct heq.symm
      · exact not_opens_of_exchange h hx hdistinct' heq
  | some start =>
      refine ⟨quiet_direct_open (Bool.eq_false_iff.mpr fun h => ?_),
        quiet_direct_open (Bool.eq_false_iff.mpr fun h => ?_)⟩
      · exact not_closes_of_exchange h hy hdistinct heq.symm
      · exact not_closes_of_exchange h hx hdistinct' heq

variable {group : List RawB05Event} {groups : List (List RawB05Event)}

/-- When no exchange of neighbours is noticed, no row of a tie of two or more has an effect. -/
theorem quiet_of_exchanges {rest : List RawB05Event}
    (hreads : ∀ row ∈ group, directReads strategy row.signal = true)
    (hdistinct : DistinctRows (group ++ rest)) (hlength : 2 ≤ group.length)
    (heq : ∀ first x y last, group = first ++ x :: y :: last →
      (directScan sha256 participantId strategy).run current (first ++ y :: x :: last ++ rest) =
        (directScan sha256 participantId strategy).run current (group ++ rest)) :
    ∀ row ∈ group, (directScan sha256 participantId strategy).Quiet current row := by
  induction group with
  | nil => simp at hlength
  | cons x group ih =>
      cases group with
      | nil => simp at hlength
      | cons y group =>
          have hboth := quiet_of_exchange (hreads x (by simp)) (hreads y (by simp)) hdistinct
            (heq [] x y group rfl)
          refine List.forall_mem_cons.mpr ⟨hboth.1, ?_⟩
          cases group with
          | nil => exact List.forall_mem_cons.mpr ⟨hboth.2, fun _ h => absurd h List.not_mem_nil⟩
          | cons z group =>
              refine ih (fun row hrow => hreads row (List.mem_cons_of_mem x hrow))
                (List.nodup_cons.mp hdistinct).2 (by simp) fun first x' y' last hgroup => ?_
              have hexchange := heq (x :: first) x' y' last (by rw [hgroup, List.cons_append])
              rw [List.cons_append, List.cons_append, List.cons_append,
                Scan.run_cons_quiet hboth.1, Scan.run_cons_quiet hboth.1] at hexchange
              exact hexchange

/-- When no exchange of neighbours is noticed, no reordering of ties is. -/
theorem run_direct_eq_of_exchanges
    (hreads : ∀ row ∈ groups.flatten, directReads strategy row.signal = true)
    (hdistinct : DistinctRows groups.flatten) (hne : ∀ group ∈ groups, group ≠ [])
    (hexchange : ∀ groups', Exchange groups groups' →
      (directScan sha256 participantId strategy).run current groups'.flatten =
        (directScan sha256 participantId strategy).run current groups.flatten)
    {groups' : List (List RawB05Event)} (hperm : List.Forall₂ List.Perm groups groups') :
    (directScan sha256 participantId strategy).run current groups'.flatten =
      (directScan sha256 participantId strategy).run current groups.flatten := by
  induction hperm generalizing current with
  | nil => rfl
  | @cons group group' groups groups' hgroup _ ih =>
      obtain ⟨hgroupNe, hrestNe⟩ := List.forall_mem_cons.mp hne
      rw [List.flatten_cons] at hreads hdistinct
      have hrestReads := fun row hrow => hreads row (List.mem_append_right group hrow)
      have hrestDistinct : DistinctRows groups.flatten := by
        rw [DistinctRows, List.map_append] at hdistinct
        exact hdistinct.of_append_right
      -- an exchange further on leaves this group and the state after it alone
      have hrestExchange : ∀ groups', Exchange groups groups' →
          (directScan sha256 participantId strategy).run
              ((directScan sha256 participantId strategy).state current group) groups'.flatten =
            (directScan sha256 participantId strategy).run
              ((directScan sha256 participantId strategy).state current group)
                groups.flatten := fun groups' h =>
        Scan.run_append_cancel (hexchange _ (h.cons group))
      have hrest := ih hrestReads hrestDistinct hrestNe hrestExchange
      rw [List.flatten_cons, List.flatten_cons]
      by_cases hlength : 2 ≤ group.length
      · -- where exchanges change nothing, no row of the tie starts or stops an interval
        have hquiet := quiet_of_exchanges (fun row hrow => hreads row (List.mem_append_left _ hrow))
          hdistinct hlength fun first x y last hsplit => by
            subst hsplit
            exact hexchange _ (.intro [] first x y last groups)
        rw [Scan.state_of_quiet hquiet] at hrest
        rw [Scan.run_append_quiet hquiet, Scan.run_append_quiet fun row hrow =>
          hquiet row (hgroup.mem_iff.mpr hrow), hrest]
      · obtain ⟨row, rfl⟩ : ∃ row, group = [row] := by
          refine List.length_eq_one_iff.mp ?_
          have := List.length_pos_iff.mpr hgroupNe
          omega
        rw [← List.singleton_perm.mp hgroup]
        exact Scan.run_append_congr hrest

end

end Chronicle.Screens
