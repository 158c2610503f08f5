import Mathlib.Order.Interval.Finset.Nat
import Chronicle.Screens.Decisive
import Chronicle.Screens.DirectTies
import Chronicle.Screens.ParrySettled
import Chronicle.Screens.ZhuTies

/-!
# The probe and the order of ties

A run is admitted without preserved source order when the probe counts no decisive tie. The probe
exchanges two neighbouring rows at a time. For the direct unlock rules that is enough; for the other
rules two moves can matter together when neither matters alone.
-/

namespace Chronicle.Screens

open Chronicle.Library Chronicle.Library.Ties

/-- The rows of one participant that reach the probe: timed, in order, and with distinct positive
row numbers. -/
structure ParticipantLog where
  rows : List RawB05Event
  participant : ∀ row ∈ rows, ∀ other ∈ rows, row.participantId = other.participantId
  timed : ∀ row ∈ rows, row.timestampNs.isSome = true
  ordered : rows.Pairwise fun a b => a.ns ≤ b.ns
  distinct : DistinctRows rows
  numbered : ∀ row ∈ rows, 0 < row.sourceDataRow ∧ row.sourceDataRow < 2 ^ 32

section

variable (sha256 : List UInt8 → List UInt8)

/-- No reordering of tied rows changes what the strategy constructs. -/
def OrderFree (strategy : Strategy) (rows : List RawB05Event) : Prop :=
  ∀ rows', Reordering RawB05Event.ns rows rows' →
    screenSemanticSignature sha256 strategy rows' = screenSemanticSignature sha256 strategy rows

/-- No tie matters, by what stands in it and beside it. -/
def TiesSettled (strategy : Strategy) (rows : List RawB05Event) : Prop :=
  match strategy with
  | .zhu2018UnlockLockV1 => ZhuSettled .idle (ties RawB05Event.ns rows)
  | .parryToth2025SessionGlanceV1 => ParrySettled (rows.filter fun row => parryReads row.signal)
  | _ => True

end

/-! ## What the probe finds -/

section Probe

variable {sha256 : List UInt8 → List UInt8} {strategy : Strategy} {rows : List RawB05Event}
variable {x y : RawB05Event} {first middle last : List RawB05Event}

theorem mem_zip_tail {α : Type} (first : List α) (x y : α) (last : List α) :
    (x, y) ∈ (first ++ x :: y :: last).zip (first ++ x :: y :: last).tail := by
  induction first with
  | nil => simp
  | cons z first ih =>
      cases first with
      | nil => simp
      | cons w first =>
          rw [List.cons_append, List.tail_cons, List.cons_append, List.zip_cons_cons]
          exact List.mem_cons_of_mem _ ih

theorem swapRows_append_cons (first : List RawB05Event) (x : RawB05Event)
    (middle : List RawB05Event) (y : RawB05Event) (last : List RawB05Event) :
    swapRows (first ++ x :: (middle ++ y :: last)) first.length
      (first.length + 1 + middle.length) = first ++ y :: (middle ++ x :: last) := by
  have hx : (first ++ x :: (middle ++ y :: last))[first.length]? = some x := by simp
  have hy : (first ++ x :: (middle ++ y :: last))[first.length + 1 + middle.length]? = some y := by
    rw [List.getElem?_append_right (by omega)]
    have : first.length + 1 + middle.length - first.length = middle.length + 1 := by omega
    simp [this]
  have hplace : first.length + 1 + middle.length - first.length = middle.length + 1 := by omega
  unfold swapRows
  rw [hx, hy]
  simp only [List.set_append_right _ _ (le_refl first.length), Nat.sub_self, List.set_cons_zero]
  rw [List.set_append_right _ _ (by omega), hplace, List.set_cons_succ,
    List.set_append_right _ _ (le_refl middle.length), Nat.sub_self, List.set_cons_zero]

variable (first last) in
/-- Two relevant rows of a tie with no relevant row between them are neighbours for the probe. -/
theorem exists_positions (hx : relevant strategy x.signal = true)
    (hy : relevant strategy y.signal = true) (hxTimed : x.timestampNs.isSome = true)
    (htied : y.timestampNs = x.timestampNs)
    (hmiddle : ∀ row ∈ middle, relevant strategy row.signal = false) :
    ∃ before after, before ++ first.length :: (first.length + 1 + middle.length) :: after ∈
      decisiveGroups strategy (first ++ x :: (middle ++ y :: last)) := by
  have hpositions : ∃ before after,
      relevantPositions strategy (first ++ x :: (middle ++ y :: last)) =
        before ++ (x, first.length) :: (y, first.length + 1 + middle.length) :: after := by
    have hnone : (middle.zipIdx (first.length + 1)).filter
        (fun entry => relevant strategy entry.1.signal && entry.1.timestampNs.isSome) = [] := by
      refine List.filter_eq_nil_iff.mpr fun entry hentry => ?_
      have hmem := List.fst_mem_of_mem_zipIdx hentry
      simp [hmiddle entry.1 hmem]
    refine ⟨(first.zipIdx 0).filter
      (fun entry => relevant strategy entry.1.signal && entry.1.timestampNs.isSome),
      (last.zipIdx (first.length + 1 + middle.length + 1)).filter
      (fun entry => relevant strategy entry.1.signal && entry.1.timestampNs.isSome), ?_⟩
    rw [relevantPositions, List.zipIdx_append, List.zipIdx_cons, List.zipIdx_append,
      List.zipIdx_cons, List.filter_append, List.filter_cons_of_pos (by simp [hx, hxTimed]),
      List.filter_append, Nat.zero_add, hnone,
      List.filter_cons_of_pos (by simp [hy, htied, hxTimed]), List.nil_append]
  obtain ⟨before, after, hpositions⟩ := hpositions
  refine ⟨(before.filter fun entry => entry.1.timestampNs = x.timestampNs).map (·.2),
    (after.filter fun entry => entry.1.timestampNs = x.timestampNs).map (·.2), ?_⟩
  rw [decisiveGroups, hpositions]
  refine List.mem_map.mpr ⟨x.timestampNs, by simp, ?_⟩
  rw [List.filter_append, List.filter_cons_of_pos (by simp),
    List.filter_cons_of_pos (by simp [htied]), List.map_append, List.map_cons, List.map_cons]

/-- There are no more groups than rows. -/
theorem length_decisiveGroups_le (strategy : Strategy) (rows : List RawB05Event) :
    (decisiveGroups strategy rows).length ≤ rows.length := by
  rw [decisiveGroups, List.length_map]
  refine (List.dedup_sublist _).length_le.trans ?_
  rw [List.length_map, relevantPositions]
  exact (List.length_filter_le _ _).trans (by rw [List.length_zipIdx])

/-- When the probe counts nothing, an exchange of two rows that it tries does not show. -/
theorem signature_eq_of_count_eq_zero (hstrategy : strategy ≠ .chronicleScreenInteractiveV1)
    (hzhu : strategy ≠ .zhu2018UnlockLockV1)
    (hcount : decisiveEqualTimestampGroupCount sha256 strategy
      (first ++ x :: (middle ++ y :: last)) = 0)
    (hlength : (first ++ x :: (middle ++ y :: last)).length < 2 ^ 32)
    (hx : relevant strategy x.signal = true) (hy : relevant strategy y.signal = true)
    (hxTimed : x.timestampNs.isSome = true) (htied : y.timestampNs = x.timestampNs)
    (hmiddle : ∀ row ∈ middle, relevant strategy row.signal = false) :
    screenSemanticSignature sha256 strategy (first ++ y :: (middle ++ x :: last)) =
      screenSemanticSignature sha256 strategy (first ++ x :: (middle ++ y :: last)) := by
  rw [decisiveEqualTimestampGroupCount, if_neg hstrategy, Nat.mod_eq_of_lt] at hcount
  · obtain ⟨before, after, hgroup⟩ := exists_positions first last hx hy
      hxTimed htied hmiddle
    have hnone := List.countP_eq_zero.mp hcount _ hgroup
    simp only [List.any_eq_true, not_exists, not_and] at hnone
    have hshows := hnone _ (mem_zip_tail before _ _ after)
    simp only [exchangeShows, hzhu, false_and, if_false, decide_eq_true_eq, ne_eq,
      not_not, swapRows_append_cons] at hshows
    exact hshows
  · exact (List.countP_le_length.trans (length_decisiveGroups_le _ _)).trans_lt hlength

end Probe

/-! ## The direct unlock rules -/

section Direct

variable {sha256 : List UInt8 → List UInt8} {strategy : Strategy} {rows : List RawB05Event}

/-- The row numbers of a log leave room for fewer than `2 ^ 32` rows. -/
theorem ParticipantLog.length_lt (log : ParticipantLog) : log.rows.length < 2 ^ 32 := by
  have hsub : (log.rows.map (·.sourceDataRow)).toFinset ⊆ Finset.Ioo 0 (2 ^ 32) := by
    intro source hsource
    obtain ⟨row, hrow, rfl⟩ := List.mem_map.mp (List.mem_toFinset.mp hsource)
    exact Finset.mem_Ioo.mpr (log.numbered row hrow)
  have hcard := Finset.card_le_card hsub
  rw [List.toFinset_card_of_nodup log.distinct, List.length_map, Nat.card_Ioo] at hcard
  omega

theorem ParticipantLog.timestampNs_eq (log : ParticipantLog) {x y : RawB05Event}
    (hx : x ∈ log.rows) (hy : y ∈ log.rows) (h : y.ns = x.ns) : y.timestampNs = x.timestampNs := by
  obtain ⟨tx, htx⟩ := Option.isSome_iff_exists.mp (log.timed x hx)
  obtain ⟨ty, hty⟩ := Option.isSome_iff_exists.mp (log.timed y hy)
  simp only [RawB05Event.ns, htx, hty, Option.getD_some] at h
  rw [htx, hty, h]

theorem relevant_eq_directReads (hdirect : strategy = .unlockToLockV1 ∨
    strategy = .unlockToOffOrLockV1) (signal : AndroidUsageSignal) :
    relevant strategy signal = directReads strategy signal := by
  rcases hdirect with rfl | rfl <;> cases signal <;> rfl

theorem participantId_eq (log : ParticipantLog) {rows' : List RawB05Event}
    (h : rows'.Perm log.rows) :
    (rows'.head?.map (·.participantId)).getD "" =
      (log.rows.head?.map (·.participantId)).getD "" := by
  cases hrows' : rows' with
  | nil => rw [hrows'] at h; rw [h.symm.eq_nil]
  | cons row' rest' =>
      cases hrows : log.rows with
      | nil => rw [hrows', hrows] at h; exact nomatch h.eq_nil
      | cons row rest =>
          have hrow' : row' ∈ log.rows := h.mem_iff.mp (by simp [hrows'])
          exact log.participant row' hrow' row (by simp [hrows])

theorem signature_direct (hdirect : strategy = .unlockToLockV1 ∨ strategy = .unlockToOffOrLockV1)
    (rows : List RawB05Event) :
    screenSemanticSignature sha256 strategy rows =
      (directScan sha256 ((rows.head?.map (·.participantId)).getD "") strategy).run none
        (rows.filter fun row => relevant strategy row.signal) := by
  have hfilter := @Scan.run_filter _ _ _ _ (directScan sha256
    ((rows.head?.map (·.participantId)).getD "") strategy)
    (fun row => relevant strategy row.signal) (fun current row h =>
      quiet_of_not_directReads current (by rwa [← relevant_eq_directReads hdirect])) none rows
  rw [hfilter]
  rcases hdirect with rfl | rfl <;> rfl

/-- Under the direct unlock rules the probe misses no tie. -/
theorem orderFree_direct (log : ParticipantLog)
    (hdirect : strategy = .unlockToLockV1 ∨ strategy = .unlockToOffOrLockV1)
    (hcount : decisiveEqualTimestampGroupCount sha256 strategy log.rows = 0) :
    OrderFree sha256 strategy log.rows := by
  intro rows' hrows'
  have hfilterSorted := log.ordered.filter fun row => relevant strategy row.signal
  have hreorder := hrows'.filter log.ordered fun row => relevant strategy row.signal
  have hflat := @flatten_ties _ _ _ RawB05Event.ns _ hfilterSorted
  have hflat' := @flatten_ties _ _ _ RawB05Event.ns _ (hreorder.pairwise hfilterSorted)
  have hsub : ∀ row ∈ log.rows.filter fun row => relevant strategy row.signal, row ∈ log.rows :=
    fun row hrow => (List.mem_filter.mp hrow).1
  rw [signature_direct hdirect, signature_direct hdirect, participantId_eq log hrows'.1]
  rw [← hflat, ← hflat']
  refine run_direct_eq_of_exchanges ?_ ?_ (fun group hg => ne_nil_of_mem_ties hg) ?_
    hreorder.forall₂_ties
  · intro row hrow
    rw [hflat] at hrow
    rw [← relevant_eq_directReads hdirect]
    exact (List.mem_filter.mp hrow).2
  · rw [hflat]
    exact (List.filter_sublist.map _).nodup log.distinct
  · intro groups' hexchange
    generalize hgroups : ties RawB05Event.ns
      (log.rows.filter fun row => relevant strategy row.signal) = groups at hexchange hflat ⊢
    obtain ⟨before, first, x, y, last, after⟩ := hexchange
    have htied : y.ns = x.ns := by
      have hmem : first ++ x :: y :: last ∈ ties RawB05Event.ns
          (log.rows.filter fun row => relevant strategy row.signal) := by
        rw [hgroups]
        simp
      exact key_eq_of_mem_ties hmem (by simp) (by simp)
    -- the rows of the log around the two neighbours
    have hsplit : log.rows.filter (fun row => relevant strategy row.signal) =
        (before.flatten ++ first) ++ x :: y :: (last ++ after.flatten) := by
      rw [← hflat]
      simp
    obtain ⟨begin, rest, hrows, hbegin, hrest⟩ := List.filter_eq_append_iff.mp hsplit
    obtain ⟨gap, rest', rfl, hgap, hxRelevant, hrest'⟩ := List.filter_eq_cons_iff.mp hrest
    obtain ⟨middle, finish, rfl, hmiddle, hyRelevant, hfinish⟩ := List.filter_eq_cons_iff.mp hrest'
    have hlog : log.rows = (begin ++ gap) ++ x :: (middle ++ y :: finish) := by
      rw [hrows, List.append_assoc]
    have hxMem : x ∈ log.rows := by simp [hlog]
    have hyMem : y ∈ log.rows := by simp [hlog]
    have hstrategy : strategy ≠ .chronicleScreenInteractiveV1 ∧
        strategy ≠ .zhu2018UnlockLockV1 := by
      rcases hdirect with rfl | rfl <;> exact ⟨by decide, by decide⟩
    have hlength := log.length_lt
    rw [hlog] at hcount hlength
    have hsame := signature_eq_of_count_eq_zero hstrategy.1 hstrategy.2 hcount hlength
      hxRelevant hyRelevant (log.timed x hxMem) (log.timestampNs_eq hxMem hyMem htied)
      fun row hrow => by simpa using hmiddle row hrow
    have hperm : ((begin ++ gap) ++ y :: (middle ++ x :: finish)).Perm log.rows := by
      rw [hlog]
      refine List.Perm.append_left _ ?_
      calc (y :: (middle ++ x :: finish)).Perm (y :: x :: (middle ++ finish)) :=
            List.perm_middle.cons y
        _ |>.Perm (x :: y :: (middle ++ finish)) := .swap _ _ _
        _ |>.Perm (x :: (middle ++ y :: finish)) := (List.perm_middle.symm).cons x
    rw [← hlog, signature_direct hdirect, signature_direct hdirect, participantId_eq log hperm]
      at hsame
    have hgapNone : gap.filter (fun row => relevant strategy row.signal) = [] :=
      List.filter_eq_nil_iff.mpr hgap
    have hmiddleNone : middle.filter (fun row => relevant strategy row.signal) = [] :=
      List.filter_eq_nil_iff.mpr hmiddle
    have hexchanged : ((begin ++ gap) ++ y :: (middle ++ x :: finish)).filter
        (fun row => relevant strategy row.signal) =
        (before ++ (first ++ y :: x :: last) :: after).flatten := by
      have hx : relevant strategy x.signal = true := hxRelevant
      have hy : relevant strategy y.signal = true := hyRelevant
      rw [List.filter_append, List.filter_append, hbegin, hgapNone]
      simp only [List.filter_cons, hx, hy, if_true, List.filter_append, hmiddleNone, hfinish]
      simp
    rw [hexchanged, ← hflat] at hsame
    exact hsame

end Direct

/-! ## The probe and the order of ties -/

section

variable {sha256 : List UInt8 → List UInt8}

theorem orderFree_zhu_iff (log : ParticipantLog) :
    OrderFree sha256 .zhu2018UnlockLockV1 log.rows ↔
      ZhuSettled .idle (ties RawB05Event.ns log.rows) := by
  have hflat := @flatten_ties _ _ _ RawB05Event.ns _ log.ordered
  have hne : ∀ group ∈ ties RawB05Event.ns log.rows, group ≠ [] :=
    fun group hg => ne_nil_of_mem_ties hg
  have hsignature : ∀ {rows' : List RawB05Event}, rows'.Perm log.rows →
      screenSemanticSignature sha256 .zhu2018UnlockLockV1 rows' =
        (zhuScan sha256 ((log.rows.head?.map (·.participantId)).getD "")).run .idle rows' := by
    intro rows' hperm
    rw [← constructZhuPartition_eq, ← participantId_eq log hperm]
    rfl
  constructor
  · intro hfree
    refine settled_of_orderFree sha256 ((log.rows.head?.map (·.participantId)).getD "") hne
      (by rw [hflat]; exact log.distinct) (fun row hrow => nomatch hrow) fun groups' hgroups => ?_
    have hreorder := reordering_of_forall₂ log.ordered hgroups
    have hsame := hfree _ hreorder
    rw [hsignature hreorder.1, hsignature (.refl _)] at hsame
    rwa [hflat]
  · intro hsettled rows' hreorder
    rw [hsignature hreorder.1, hsignature (.refl _)]
    have hsame := run_eq_of_settled sha256
      ((log.rows.head?.map (·.participantId)).getD "") hne hsettled
      hreorder.forall₂_ties
    rwa [hflat, flatten_ties (hreorder.pairwise log.ordered)] at hsame

theorem orderFree_parry_iff (log : ParticipantLog) :
    OrderFree sha256 .parryToth2025SessionGlanceV1 log.rows ↔
      ParrySettled (log.rows.filter fun row => parryReads row.signal) := by
  have hsorted := log.ordered.filter fun row => parryReads row.signal
  have hdistinct : DistinctRows (log.rows.filter fun row => parryReads row.signal) :=
    (List.filter_sublist.map _).nodup log.distinct
  have hsignature : ∀ {rows' : List RawB05Event}, rows'.Perm log.rows →
      screenSemanticSignature sha256 .parryToth2025SessionGlanceV1 rows' =
        parryPartition sha256 ((log.rows.head?.map (·.participantId)).getD "")
          (parryEndpoints none (rows'.filter fun row => parryReads row.signal)) := by
    intro rows' hperm
    rw [← participantId_eq log hperm]
    rfl
  constructor
  · intro hfree
    refine parrySettled_of_orderFree sha256
      ((log.rows.head?.map (·.participantId)).getD "") hsorted hdistinct
      fun projection hprojection => ?_
    obtain ⟨rows', hrows', rfl⟩ := exists_reordering_of_filter log.ordered _ hprojection
    have hsame := hfree rows' hrows'
    rwa [hsignature hrows'.1, hsignature (.refl _)] at hsame
  · intro hsettled rows' hreorder
    rw [hsignature hreorder.1, hsignature (.refl _)]
    exact parryPartition_eq_of_settled hsorted hdistinct hsettled
      (hreorder.filter log.ordered fun row => parryReads row.signal)

/-- When the probe counts no decisive tie, the order of tied rows is without effect exactly when no
tie matters by what stands in it and beside it. -/
theorem undecisive_order_free_iff (log : ParticipantLog) {strategy : Strategy}
    (hstrategy : strategy ≠ .chronicleScreenInteractiveV1)
    (hcount : decisiveEqualTimestampGroupCount sha256 strategy log.rows = 0) :
    OrderFree sha256 strategy log.rows ↔ TiesSettled strategy log.rows := by
  cases strategy with
  | chronicleScreenInteractiveV1 => exact absurd rfl hstrategy
  | parryToth2025SessionGlanceV1 => exact orderFree_parry_iff log
  | zhu2018UnlockLockV1 => exact orderFree_zhu_iff log
  | unlockToLockV1 => exact iff_of_true (orderFree_direct log (.inl rfl) hcount) trivial
  | unlockToOffOrLockV1 => exact iff_of_true (orderFree_direct log (.inr rfl) hcount) trivial

end

/-- A row at the time 0. -/
def tiedRow (sourceDataRow : Nat) (signal : AndroidUsageSignal) : RawB05Event where
  participantId := "P1"
  timestampNs := some 0
  sourceDataRow
  rawInteractionType := ""
  signal

/-- A screen row and an unlock at one time, with two other rows between them. -/
def tiedUnlock : ParticipantLog where
  rows := [tiedRow 1 .screenInteractive, tiedRow 2 .other, tiedRow 3 .other,
    tiedRow 4 .keyguardHidden]
  participant := by decide
  timed := by decide
  ordered := by decide
  distinct := by decide
  numbered := by decide

/-- The probe counts no decisive tie, but a reordering puts the unlock right after the screen row
and so opens an interval. -/
theorem undecisive_order_matters :
    ∃ (sha256 : List UInt8 → List UInt8) (log : ParticipantLog),
      decisiveEqualTimestampGroupCount sha256 .zhu2018UnlockLockV1 log.rows = 0 ∧
        ¬ OrderFree sha256 .zhu2018UnlockLockV1 log.rows := by
  refine ⟨fun _ => [], tiedUnlock, by decide +kernel, fun hfree => ?_⟩
  have hsame := hfree [tiedRow 1 .screenInteractive, tiedRow 4 .keyguardHidden, tiedRow 2 .other,
    tiedRow 3 .other] ⟨by decide, by decide⟩
  have hissues := congrArg (fun signature => signature.issues.length) hsame
  exact absurd hissues (by decide +kernel)

/-- A tied unlock alone with other rows, which no order of the tie affects. -/
theorem undecisive_order_free_tiedUnlock :
    OrderFree (fun _ => []) .unlockToLockV1 tiedUnlock.rows ↔
      TiesSettled .unlockToLockV1 tiedUnlock.rows :=
  undecisive_order_free_iff tiedUnlock (by decide) (by decide +kernel)

end Chronicle.Screens
