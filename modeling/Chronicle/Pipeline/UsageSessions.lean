import Chronicle.Library.Groups
import Chronicle.Library.Numbering
import Chronicle.Pipeline.Cleaning

/-!
# Usage sessions

Under a fixed threshold and the running maximum the walk over a partition numbers the rows by the
breaks among them. The walk forgets the stops of earlier sessions, but a break means that the next
start lies past all of them.
-/

namespace Chronicle.Pipeline

open Chronicle.Library Chronicle.Library.Machine Chronicle.Library.Numbering
open Chronicle.Library.StableSort Chronicle.Library.Groups

/-! ## The rules -/

/-- A fixed threshold without a package clause, measured from the running maximum. -/
structure FixedThreshold (rules : SessionGroupingRules) (ns : Int) : Prop where
  threshold : rules.policy.gapThreshold = some (.fixedNs ns)
  package : rules.policy.packageChangeEndsSession = false
  basis : rules.gapBasis = .sessionRunningMaximumStop

/-- The latest stop among the rows at the given positions. -/
def coverageEnvelope (rows : List Row) (before : List Nat) : Int :=
  (before.map fun index => (rowAt rows index).sessionStop).foldl max i64Min

/-- The gap from what the earlier rows of the order cover to the start of the next row breaks. -/
def breaksAt (rules : SessionGroupingRules) (ns : Int) (rows : List Row) (order : List Nat)
    (n : Nat) : Bool :=
  gapBreaks rules (some (2 * ns))
    ((rowAt rows (order.getD n 0)).sessionStart - coverageEnvelope rows (order.take n))

/-- The number of the session of a place in the order. -/
def sessionNumber (rules : SessionGroupingRules) (ns : Int) (rows : List Row) (order : List Nat)
    (n : Nat) : Int := number (breaksAt rules ns rows order) n

/-- The start and stop of every bounded usage row are 64-bit values, and so is the gap between any
two rows of one partition. -/
def SessionTimesFit (rows : List Row) (scope : SessionBoundaryScope) : Prop :=
  ∀ a ∈ rows, ∀ b ∈ rows, isBoundedUsage a = true → isBoundedUsage b = true →
    Fits64 a.sessionStop ∧ (sessionPartitionKey a scope = sessionPartitionKey b scope →
      Fits64 (a.sessionStart - b.sessionStop))

section Walk

variable {formatNumber : Binary64 → String} {rules : SessionGroupingRules} {ns : Int}
variable {rows : List Row} {order : List Nat} {w : SessionWalk} {intervalCount k : Nat}

theorem gapBreaks_mono {threshold : Option Int} {gap gap' : Int} (hle : gap ≤ gap')
    (h : gapBreaks rules threshold gap = true) : gapBreaks rules threshold gap' = true := by
  unfold gapBreaks at h ⊢
  split <;> simp_all <;> omega

theorem coverageEnvelope_append (rows : List Row) (before : List Nat) (index : Nat) :
    coverageEnvelope rows (before ++ [index]) =
      max (coverageEnvelope rows before) (rowAt rows index).sessionStop := by
  simp [coverageEnvelope]

@[simp]
theorem sessionStart_numberRow (session : Int) (flag : String) (row : Row) :
    (numberRow rules session flag row).sessionStart = row.sessionStart := by
  unfold numberRow
  split <;> rfl

@[simp]
theorem sessionStop_numberRow (session : Int) (flag : String) (row : Row) :
    (numberRow rules session flag row).sessionStop = row.sessionStop := by
  unfold numberRow
  split <;> rfl

@[simp]
theorem isBoundedUsage_numberRow (session : Int) (flag : String) (row : Row) :
    isBoundedUsage (numberRow rules session flag row) = isBoundedUsage row := by
  unfold numberRow
  split <;> rfl

@[simp]
theorem sessionPartitionKey_numberRow (session : Int) (flag : String) (row : Row)
    (scope : SessionBoundaryScope) :
    sessionPartitionKey (numberRow rules session flag row) scope =
      sessionPartitionKey row scope := by
  unfold numberRow
  split <;> rfl

@[simp]
theorem usageSessionId_numberRow (session : Int) (flag : String) (row : Row) :
    (numberRow rules session flag row).usageSessionId = some session := by
  unfold numberRow
  split <;> rfl

/-- The walk has reached a place of the order. -/
structure Walked (rules : SessionGroupingRules) (ns : Int) (rows : List Row) (order : List Nat)
    (k : Nat) (w : SessionWalk) : Prop where
  numbered : ∀ n index, n < k → order[n]? = some index → ∃ flag,
    w.rows[index]? = rows[index]?.map (numberRow rules (sessionNumber rules ns rows order n) flag)
  others : ∀ index, index ∉ order.take k → w.rows[index]? = rows[index]?
  session : w.session = sessionNumber rules ns rows order (k - 1)
  previous : w.previous = if k = 0 then none else order[k - 1]?
  begins : k = 0 → w.sessionMaxStop = i64Min
  stops : 0 < k → ∃ index ∈ order.take k, w.sessionMaxStop = (rowAt rows index).sessionStop
  envelope : w.sessionMaxStop ≤ coverageEnvelope rows (order.take k)
  /-- For a start that is still to come the forgotten stops make no difference. -/
  same : ∀ start, (∀ index ∈ order.take k, (rowAt rows index).sessionStart ≤ start) →
    gapBreaks rules (some (2 * ns)) (start - w.sessionMaxStop) =
      gapBreaks rules (some (2 * ns)) (start - coverageEnvelope rows (order.take k))

theorem walked_zero : Walked rules ns rows order 0 ⟨rows, 0, none, i64Min⟩ where
  numbered n _ hn := absurd hn (Nat.not_lt_zero n)
  others _ _ := rfl
  session := rfl
  previous := rfl
  begins _ := rfl
  stops h := absurd h (lt_irrefl 0)
  envelope := le_rfl
  same _ _ := rfl

theorem rowAt_congr {rows rows' : List Row} {index index' : Nat}
    (h : rows'[index']? = rows[index]?) : rowAt rows' index' = rowAt rows index := by
  rw [rowAt, rowAt, List.getD_eq_getElem?_getD, List.getD_eq_getElem?_getD, h]

theorem i64Min_le_coverageEnvelope (rows : List Row) (before : List Nat) :
    i64Min ≤ coverageEnvelope rows before := by
  induction before using List.reverseRecOn with
  | nil => exact le_rfl
  | append_singleton before index ih =>
      rw [coverageEnvelope_append]
      exact ih.trans (le_max_left _ _)

/-- What the walk asks of the order it follows. -/
structure SessionOrder (rows : List Row) (order : List Nat) : Prop where
  nodup : order.Nodup
  sorted : order.Pairwise fun a b => (rowAt rows a).sessionStart ≤ (rowAt rows b).sessionStart
  stop_fits : ∀ a ∈ order, Fits64 (rowAt rows a).sessionStop
  gap_fits : ∀ a ∈ order, ∀ b ∈ order,
    Fits64 ((rowAt rows a).sessionStart - (rowAt rows b).sessionStop)

/-- The forgotten stops still make no difference after one more row. -/
theorem same_of_max {start maxStop envelope stop : Int} (hle : maxStop ≤ envelope)
    (h : gapBreaks rules (some (2 * ns)) (start - maxStop) =
      gapBreaks rules (some (2 * ns)) (start - envelope)) :
    gapBreaks rules (some (2 * ns)) (start - max maxStop stop) =
      gapBreaks rules (some (2 * ns)) (start - max envelope stop) := by
  rcases le_total envelope stop with hstop | hstop
  · rw [max_eq_right hstop, max_eq_right (hle.trans hstop)]
  · rw [max_eq_left hstop, Bool.eq_iff_iff]
    refine ⟨fun hbreaks => ?_, fun hbreaks => gapBreaks_mono (by omega) hbreaks⟩
    rw [← h]
    exact gapBreaks_mono (by omega) hbreaks

variable (formatNumber intervalCount) in
/-- One row of the walk. -/
theorem Walked.step (hrules : FixedThreshold rules ns) (horder : SessionOrder rows order)
    (h : Walked rules ns rows order k w) {index : Nat} (hk : order[k]? = some index) :
    Walked rules ns rows order (k + 1)
      (sessionStep formatNumber rules (some (2 * ns)) intervalCount w index) := by
  have hlt : k < order.length := (List.getElem?_eq_some_iff.mp hk).1
  have htake : order.take (k + 1) = order.take k ++ [index] := by
    rw [List.take_add_one, hk]
    rfl
  have hmem : index ∈ order := List.mem_of_getElem? hk
  have hnew : index ∉ order.take k := by
    have hnodup := (List.take_sublist (k + 1) order).nodup horder.nodup
    rw [htake] at hnodup
    exact fun hold => List.disjoint_of_nodup_append hnodup hold List.mem_cons_self
  have hrow := rowAt_congr (h.others index hnew)
  have hbefore : ∀ other ∈ order.take k,
      (rowAt rows other).sessionStart ≤ (rowAt rows index).sessionStart := by
    have hsorted := horder.sorted.sublist (List.take_sublist (k + 1) order)
    rw [htake] at hsorted
    exact fun other hother => (List.pairwise_append.mp hsorted).2.2 other hother index (by simp)
  have hstopFits := fits64_iff.mp (horder.stop_fits index hmem)
  have hplaces : ∀ {n : Nat} {other : Nat}, n < k → order[n]? = some other → other ≠ index := by
    rintro n other hn hother rfl
    exact hnew (List.mem_iff_getElem?.mpr ⟨n, by rw [List.getElem?_take_of_lt hn]; exact hother⟩)
  -- whatever number and flag the row gets, the rest of the table is as before
  have hrows : ∀ (flag : String), ∀ n other, n < k + 1 → order[n]? = some other → ∃ flag',
      (w.rows.modify index (numberRow rules (sessionNumber rules ns rows order k) flag))[other]? =
        rows[other]?.map (numberRow rules (sessionNumber rules ns rows order n) flag') := by
    intro flag n other hn hother
    rcases Nat.lt_succ_iff_lt_or_eq.mp hn with hn | rfl
    · obtain ⟨flag', hflag'⟩ := h.numbered n other hn hother
      exact ⟨flag', by rw [List.getElem?_modify_ne _ _ (hplaces hn hother).symm, hflag']⟩
    · obtain rfl := Option.some.inj (hk.symm.trans hother)
      exact ⟨flag, by rw [List.getElem?_modify_eq, h.others index hnew]; rfl⟩
  have hothers : ∀ (session : Int) (flag : String), ∀ other, other ∉ order.take (k + 1) →
      (w.rows.modify index (numberRow rules session flag))[other]? = rows[other]? := by
    intro session flag other hother
    rw [htake, List.mem_append, List.mem_singleton, not_or] at hother
    rw [List.getElem?_modify_ne _ _ (Ne.symm hother.2), h.others other hother.1]
  have hprevious : some index = if k + 1 = 0 then none else order[k + 1 - 1]? := by
    rw [if_neg (Nat.succ_ne_zero k), Nat.add_sub_cancel, hk]
  unfold sessionStep
  dsimp only
  rw [hrow]
  rcases Nat.eq_zero_or_pos k with rfl | hpos
  · have hnone : w.previous = none := h.previous
    have hmax : w.sessionMaxStop = i64Min := h.begins rfl
    have hsession : w.session = sessionNumber rules ns rows order 0 := h.session
    have hcovered : coverageEnvelope rows (order.take 1) = max i64Min
        (rowAt rows index).sessionStop := by
      rw [htake, coverageEnvelope_append]
      rfl
    rw [hnone]
    simp only [hmax, hsession]
    refine ⟨hrows _, hothers _ _, rfl, hprevious, fun hzero => absurd hzero (Nat.succ_ne_zero 0),
      fun _ => ⟨index, by simp [htake], max_eq_right hstopFits.1⟩, hcovered.ge, fun start _ => ?_⟩
    rw [hcovered]
  · obtain ⟨k, rfl⟩ := Nat.exists_eq_add_one_of_ne_zero hpos.ne'
    obtain ⟨previous, hat⟩ : ∃ previous, order[k]? = some previous :=
      ⟨_, List.getElem?_eq_getElem (by omega)⟩
    have hsome : w.previous = some previous := by
      rw [h.previous, if_neg (Nat.succ_ne_zero k), Nat.add_sub_cancel, hat]
    obtain ⟨latest, hlatest, hmaxStop⟩ := h.stops hpos
    have hgap : sessionGap rules w previous index =
        (rowAt rows index).sessionStart - w.sessionMaxStop := by
      unfold sessionGap
      rw [hrules.basis, hrow, hmaxStop]
      exact wrap64_of_fits (horder.gap_fits index hmem latest (List.mem_of_mem_take hlatest))
    have hbreaks : gapBreaks rules (some (2 * ns)) (sessionGap rules w previous index) =
        breaksAt rules ns rows order (k + 1) := by
      rw [hgap, h.same _ hbefore, breaksAt, List.getD_eq_getElem?_getD, hk]
      rfl
    have hswitched : packageSwitched rules w previous index = false := by
      rw [packageSwitched, hrules.package]
      rfl
    have hnumber : (if breaksAt rules ns rows order (k + 1) then w.session + 1 else w.session) =
        sessionNumber rules ns rows order (k + 1) := by
      rw [h.session, sessionNumber, sessionNumber, number_succ, Nat.add_sub_cancel]
      split <;> simp
    rw [hsome]
    simp only [hbreaks, hswitched, Bool.or_false, hnumber]
    refine ⟨hrows _, hothers _ _, rfl, hprevious, fun hzero => absurd hzero (Nat.succ_ne_zero _),
      fun _ => ?_, ?_, fun start hstart => ?_⟩
    · split
      · exact ⟨index, by simp [htake], max_eq_right hstopFits.1⟩
      · rcases le_total w.sessionMaxStop (rowAt rows index).sessionStop with hle | hle
        · exact ⟨index, by simp [htake], max_eq_right hle⟩
        · exact ⟨latest, by rw [htake]; exact List.mem_append_left _ hlatest,
            (max_eq_left hle).trans hmaxStop⟩
    · rw [htake, coverageEnvelope_append]
      refine max_le_max ?_ le_rfl
      split
      · exact i64Min_le_coverageEnvelope rows _
      · exact h.envelope
    · rw [htake] at hstart ⊢
      rw [coverageEnvelope_append]
      split
      · rename_i hbreak
        have hlater := hstart index (by simp)
        have hfloor : max i64Min (rowAt rows index).sessionStop = (rowAt rows index).sessionStop :=
          max_eq_right hstopFits.1
        dsimp only
        rw [hfloor]
        rcases le_total (coverageEnvelope rows (order.take (k + 1)))
          (rowAt rows index).sessionStop with hle | hle
        · rw [max_eq_right hle]
        · rw [max_eq_left hle]
          rw [breaksAt, List.getD_eq_getElem?_getD, hk] at hbreak
          have hpast : gapBreaks rules (some (2 * ns))
              (start - coverageEnvelope rows (order.take (k + 1))) = true :=
            gapBreaks_mono (sub_le_sub_right hlater _) hbreak
          rw [hpast]
          exact gapBreaks_mono (by omega) hpast
      · exact same_of_max h.envelope
          (h.same start fun other hother => hstart other (List.mem_append_left _ hother))

variable (formatNumber intervalCount) in
/-- The whole walk. -/
theorem walked_foldl (hrules : FixedThreshold rules ns) (horder : SessionOrder rows order) :
    Walked rules ns rows order order.length
      (order.foldl (sessionStep formatNumber rules (some (2 * ns)) intervalCount)
        ⟨rows, 0, none, i64Min⟩) := by
  suffices h : ∀ k ≤ order.length, Walked rules ns rows order k
      ((order.take k).foldl (sessionStep formatNumber rules (some (2 * ns)) intervalCount)
        ⟨rows, 0, none, i64Min⟩) by
    have hall := h order.length le_rfl
    rwa [List.take_length] at hall
  intro k
  induction k with
  | zero => exact fun _ => walked_zero
  | succ k ih =>
      intro hk
      have hat := List.getElem?_eq_getElem (Nat.lt_of_succ_le hk)
      rw [List.take_add_one, hat, Option.toList_some, List.foldl_append]
      exact (ih (by omega)).step formatNumber intervalCount hrules horder hat

end Walk

/-! ## Walks side by side -/

section Mirrors

variable {formatNumber : Binary64 → String} {rules : SessionGroupingRules}
variable {threshold : Option Int} {order order' : List Nat} {w w' : SessionWalk}

/-- Two walks along two orders stand at the same place, over rows that agree along the orders. -/
structure Mirrors (order order' : List Nat) (w w' : SessionWalk) : Prop where
  rows : ∀ n i i' : Nat, order[n]? = some i → order'[n]? = some i' → w.rows[i]? = w'.rows[i']?
  session : w.session = w'.session
  previous : (w.previous = none ∧ w'.previous = none) ∨ ∃ i i', w.previous = some i ∧
    w'.previous = some i' ∧ ∃ n : Nat, order[n]? = some i ∧ order'[n]? = some i'
  sessionMaxStop : w.sessionMaxStop = w'.sessionMaxStop

variable (formatNumber rules threshold) in
theorem Mirrors.step (hnodup : order.Nodup) (hnodup' : order'.Nodup) (h : Mirrors order order' w w')
    {n i i' : Nat} (hi : order[n]? = some i) (hi' : order'[n]? = some i') (intervalCount : Nat) :
    Mirrors order order' (sessionStep formatNumber rules threshold intervalCount w i)
      (sessionStep formatNumber rules threshold intervalCount w' i') := by
  have hrow : rowAt w.rows i = rowAt w'.rows i' := rowAt_congr (h.rows n i i' hi hi')
  have hrows : ∀ change : Row → Row, ∀ m j j' : Nat, order[m]? = some j → order'[m]? = some j' →
      (w.rows.modify i change)[j]? = (w'.rows.modify i' change)[j']? := by
    intro change m j j' hj hj'
    by_cases hmn : m = n
    · subst hmn
      obtain rfl := Option.some.inj (hi.symm.trans hj)
      obtain rfl := Option.some.inj (hi'.symm.trans hj')
      rw [List.getElem?_modify_eq, List.getElem?_modify_eq, h.rows m i i' hi hi']
    · have hne : i ≠ j := fun heq => hmn (idx_inj hnodup hj (heq ▸ hi))
      have hne' : i' ≠ j' := fun heq => hmn (idx_inj hnodup' hj' (heq ▸ hi'))
      rw [List.getElem?_modify_ne _ _ hne, List.getElem?_modify_ne _ _ hne',
        h.rows m j j' hj hj']
  unfold sessionStep
  dsimp only
  rcases h.previous with ⟨hnone, hnone'⟩ | ⟨p, p', hsome, hsome', m, hp, hp'⟩
  · rw [hnone, hnone']
    simp only [h.session, h.sessionMaxStop, hrow]
    exact ⟨hrows _, rfl, .inr ⟨i, i', rfl, rfl, n, hi, hi'⟩, rfl⟩
  · have hlast : rowAt w.rows p = rowAt w'.rows p' := rowAt_congr (h.rows m p p' hp hp')
    have hgap : sessionGap rules w p i = sessionGap rules w' p' i' := by
      unfold sessionGap
      rw [hrow, hlast, h.sessionMaxStop]
    have hswitched : packageSwitched rules w p i = packageSwitched rules w' p' i' := by
      unfold packageSwitched
      rw [hrow, hlast]
    rw [hsome, hsome']
    simp only [hgap, hswitched, h.session, h.sessionMaxStop, hrow]
    exact ⟨hrows _, rfl, .inr ⟨i, i', rfl, rfl, n, hi, hi'⟩, rfl⟩

variable (formatNumber rules threshold) in
/-- Walks over rows that agree along the orders leave rows that agree along the orders. -/
theorem mirrors_foldl (hnodup : order.Nodup) (hnodup' : order'.Nodup)
    (hlength : order.length = order'.length) {rows rows' : List Row}
    (hrows : ∀ n i i' : Nat, order[n]? = some i → order'[n]? = some i' → rows[i]? = rows'[i']?)
    (intervalCount : Nat) :
    Mirrors order order'
      (order.foldl (sessionStep formatNumber rules threshold intervalCount)
        ⟨rows, 0, none, i64Min⟩)
      (order'.foldl (sessionStep formatNumber rules threshold intervalCount)
        ⟨rows', 0, none, i64Min⟩) := by
  suffices h : ∀ k ≤ order.length, Mirrors order order'
      ((order.take k).foldl (sessionStep formatNumber rules threshold intervalCount)
        ⟨rows, 0, none, i64Min⟩)
      ((order'.take k).foldl (sessionStep formatNumber rules threshold intervalCount)
        ⟨rows', 0, none, i64Min⟩) by
    have hall := h order.length le_rfl
    rwa [List.take_length, hlength, List.take_length] at hall
  intro k
  induction k with
  | zero => exact fun _ => ⟨hrows, rfl, .inl ⟨rfl, rfl⟩, rfl⟩
  | succ k ih =>
      intro hk
      have hat := List.getElem?_eq_getElem (Nat.lt_of_succ_le hk)
      have hat' := List.getElem?_eq_getElem (Nat.lt_of_succ_le (hlength ▸ hk))
      rw [List.take_add_one, hat, Option.toList_some, List.foldl_append,
        List.take_add_one, hat', Option.toList_some, List.foldl_append]
      exact (ih (by omega)).step formatNumber rules threshold hnodup hnodup' hat hat' _

end Mirrors

/-! ## The partitions -/

section Partitions

variable {formatNumber : Binary64 → String} {rules : SessionGroupingRules} {ns : Int}
variable {rows out : List Row} {scope : SessionBoundaryScope} {key : SessionPartitionKey}

theorem mem_partitionOrder {index : Nat} : index ∈ partitionOrder rows scope key ↔
    index < rows.length ∧ isBoundedUsage (rowAt rows index) = true ∧
      sessionPartitionKey (rowAt rows index) scope = key := by
  simp [partitionOrder]

theorem nodup_partitionOrder : (partitionOrder rows scope key).Nodup :=
  (perm_sortByKey _ _).nodup_iff.mpr (List.nodup_range.filter _)

theorem rowAt_of_lt {index : Nat} (h : index < rows.length) : rowAt rows index = rows[index] := by
  rw [rowAt, List.getD_eq_getElem?_getD, List.getElem?_eq_getElem h]
  rfl

theorem mem_rows_of_lt {index : Nat} (h : index < rows.length) : rowAt rows index ∈ rows := by
  rw [rowAt_of_lt h]
  exact List.getElem_mem h

theorem pairwise_partitionOrder : (partitionOrder rows scope key).Pairwise fun a b =>
    (rowAt rows a).sessionStart ≤ (rowAt rows b).sessionStart :=
  (pairwise_sortByKey _ _).imp fun {a b} hle => by
    rcases Prod.Lex.le_iff.mp hle with hlt | ⟨heq, -⟩
    · exact hlt.le
    · exact heq.le

/-- The order of a partition suits the walk. -/
theorem sessionOrder_partitionOrder (hfits : SessionTimesFit rows scope) :
    SessionOrder rows (partitionOrder rows scope key) where
  nodup := nodup_partitionOrder
  sorted := pairwise_partitionOrder
  stop_fits a ha := by
    obtain ⟨hlt, hbounded, -⟩ := mem_partitionOrder.mp ha
    exact (hfits _ (mem_rows_of_lt hlt) _ (mem_rows_of_lt hlt) hbounded hbounded).1
  gap_fits a ha b hb := by
    obtain ⟨hltA, hboundedA, hkeyA⟩ := mem_partitionOrder.mp ha
    obtain ⟨hltB, hboundedB, hkeyB⟩ := mem_partitionOrder.mp hb
    exact (hfits _ (mem_rows_of_lt hltA) _ (mem_rows_of_lt hltB) hboundedA hboundedB).2
      (hkeyA.trans hkeyB.symm)

/-- The walk over the rows of one partition as a table of their own. -/
def numberedAlone (formatNumber : Binary64 → String) (rules : SessionGroupingRules) (ns : Int)
    (rows : List Row) : List Row :=
  ((List.range rows.length).foldl (sessionStep formatNumber rules (some (2 * ns)) (rows.length - 1))
    ⟨rows, 0, none, i64Min⟩).rows

/-- The rows of a partition, in its order. -/
def partitionRows (rows : List Row) (scope : SessionBoundaryScope) (key : SessionPartitionKey) :
    List Row := (partitionOrder rows scope key).map (rowAt rows)

theorem length_sessionStep (formatNumber : Binary64 → String) (threshold : Option Int)
    (intervalCount : Nat) (w : SessionWalk) (index : Nat) :
    (sessionStep formatNumber rules threshold intervalCount w index).rows.length =
      w.rows.length := by
  unfold sessionStep
  cases w.previous with
  | none => exact List.length_modify _ _ _
  | some previous => exact List.length_modify _ _ _

theorem length_sessionStep_foldl (formatNumber : Binary64 → String) (threshold : Option Int)
    (intervalCount : Nat) (order : List Nat) (w : SessionWalk) :
    (order.foldl (sessionStep formatNumber rules threshold intervalCount) w).rows.length =
      w.rows.length := by
  induction order generalizing w with
  | nil => rfl
  | cons index order ih => rw [List.foldl_cons, ih, length_sessionStep]

theorem sessionStep_foldl_others (formatNumber : Binary64 → String) (threshold : Option Int)
    (intervalCount : Nat) (w : SessionWalk) {order : List Nat} {index : Nat}
    (hindex : index ∉ order) :
    (order.foldl (sessionStep formatNumber rules threshold intervalCount) w).rows[index]? =
      w.rows[index]? := by
  induction order generalizing w with
  | nil => rfl
  | cons first order ih =>
      obtain ⟨hne, hrest⟩ := not_or.mp (List.mem_cons.not.mp hindex)
      rw [List.foldl_cons, ih _ hrest]
      unfold sessionStep
      cases w.previous with
      | none => exact List.getElem?_modify_ne _ _ (Ne.symm hne)
      | some previous => exact List.getElem?_modify_ne _ _ (Ne.symm hne)

/-- The partitions of the list are numbered, each as it is alone, and nothing else is changed. -/
structure NumberedIn (formatNumber : Binary64 → String) (rules : SessionGroupingRules) (ns : Int)
    (rows : List Row) (keys : List SessionPartitionKey) (out : List Row) : Prop where
  length : out.length = rows.length
  numbered : ∀ key ∈ keys, ∀ n index : Nat, (partitionOrder rows rules.scope key)[n]? = some index →
    ∃ flag, out[index]? = rows[index]?.map (numberRow rules
      (sessionNumber rules ns rows (partitionOrder rows rules.scope key) n) flag)
  alone : ∀ key ∈ keys, ∀ n index : Nat, (partitionOrder rows rules.scope key)[n]? = some index →
    out[index]? = (numberedAlone formatNumber rules ns (partitionRows rows rules.scope key))[n]?
  others : ∀ index : Nat, (∀ key ∈ keys, index ∉ partitionOrder rows rules.scope key) →
    out[index]? = rows[index]?

/-- A row of the result is the row it was, or a numbered one. -/
theorem NumberedIn.rowAt_eq {keys : List SessionPartitionKey}
    (h : NumberedIn formatNumber rules ns rows keys out) (index : Nat) :
    (∃ session flag, rowAt out index = numberRow rules session flag (rowAt rows index)) ∨
      rowAt out index = rowAt rows index := by
  by_cases hmem : ∀ key ∈ keys, index ∉ partitionOrder rows rules.scope key
  · exact .inr (rowAt_congr (h.others index hmem))
  · simp only [not_forall, not_not] at hmem
    obtain ⟨key, hkey, hindex⟩ := hmem
    obtain ⟨n, hn⟩ := List.mem_iff_getElem?.mp hindex
    obtain ⟨flag, hflag⟩ := h.numbered key hkey n index hn
    have hlt := (mem_partitionOrder.mp hindex).1
    refine .inl ⟨sessionNumber rules ns rows (partitionOrder rows rules.scope key) n, flag, ?_⟩
    rw [rowAt, rowAt, List.getD_eq_getElem?_getD, List.getD_eq_getElem?_getD, hflag,
      List.getElem?_eq_getElem hlt]
    rfl

/-- Numbering some partitions leaves the others as they are. -/
theorem NumberedIn.partitionOrder_eq {keys : List SessionPartitionKey}
    (h : NumberedIn formatNumber rules ns rows keys out) (scope : SessionBoundaryScope) :
    partitionOrder out scope key = partitionOrder rows scope key := by
  have hstart : ∀ index, (rowAt out index).sessionStart = (rowAt rows index).sessionStart ∧
      isBoundedUsage (rowAt out index) = isBoundedUsage (rowAt rows index) ∧
      sessionPartitionKey (rowAt out index) scope =
        sessionPartitionKey (rowAt rows index) scope := by
    intro index
    rcases h.rowAt_eq index with ⟨session, flag, heq⟩ | heq
    · simp [heq]
    · simp [heq]
  unfold partitionOrder
  rw [h.length]
  simp only [(hstart _).1, (hstart _).2.1, (hstart _).2.2]

/-- One more partition. -/
theorem NumberedIn.step (hrules : FixedThreshold rules ns)
    (hfits : SessionTimesFit rows rules.scope) {keys : List SessionPartitionKey}
    (h : NumberedIn formatNumber rules ns rows keys out) (hkey : key ∉ keys) :
    NumberedIn formatNumber rules ns rows (keys ++ [key])
      (numberPartition formatNumber rules (.fixedNs ns) out key) := by
  generalize horderEq : partitionOrder rows rules.scope key = order
  have horder : SessionOrder rows order := horderEq ▸ sessionOrder_partitionOrder hfits
  have hnew : ∀ index ∈ order, ∀ other ∈ keys,
      index ∉ partitionOrder rows rules.scope other := by
    intro index hindex other hother hmem
    rw [← horderEq] at hindex
    have hkeyEq := (mem_partitionOrder.mp hindex).2.2
    rw [(mem_partitionOrder.mp hmem).2.2] at hkeyEq
    exact hkey (hkeyEq ▸ hother)
  have hold : ∀ index ∈ order, out[index]? = rows[index]? := fun index hindex =>
    h.others index (hnew index hindex)
  have hwalked := walked_foldl formatNumber (order.length - 1) hrules horder
  have hsame : ∀ index, index ∉ order →
      (order.foldl (sessionStep formatNumber rules (some (2 * ns)) (order.length - 1))
        ⟨out, 0, none, i64Min⟩).rows[index]? = out[index]? := fun index hindex =>
    sessionStep_foldl_others _ _ _ _ hindex
  -- the walk over the table as it stands, over the first table, and over the partition alone
  have hfirst : Mirrors order order
      (order.foldl (sessionStep formatNumber rules (some (2 * ns)) (order.length - 1))
        ⟨out, 0, none, i64Min⟩)
      (order.foldl (sessionStep formatNumber rules (some (2 * ns)) (order.length - 1))
        ⟨rows, 0, none, i64Min⟩) := by
    refine mirrors_foldl formatNumber rules (some (2 * ns)) horder.nodup horder.nodup rfl ?_ _
    intro n i i' hi hi'
    obtain rfl := Option.some.inj (hi.symm.trans hi')
    exact hold i (List.mem_of_getElem? hi)
  have halone : Mirrors order (List.range (partitionRows rows rules.scope key).length)
      (order.foldl (sessionStep formatNumber rules (some (2 * ns)) (order.length - 1))
        ⟨out, 0, none, i64Min⟩)
      ((List.range (partitionRows rows rules.scope key).length).foldl
        (sessionStep formatNumber rules (some (2 * ns)) (order.length - 1))
        ⟨partitionRows rows rules.scope key, 0, none, i64Min⟩) := by
    have hlength : order.length = (partitionRows rows rules.scope key).length := by
      rw [partitionRows, List.length_map, horderEq]
    refine mirrors_foldl formatNumber rules (some (2 * ns)) horder.nodup List.nodup_range
      (hlength.trans List.length_range.symm) ?_ _
    intro n i i' hi hi'
    have hlt := (List.getElem?_eq_some_iff.mp hi).1
    rw [List.getElem?_range (hlength ▸ hlt)] at hi'
    obtain rfl := Option.some.inj hi'
    have hmem := List.mem_of_getElem? hi
    rw [hold i hmem, partitionRows, horderEq, List.getElem?_map, hi]
    rw [← horderEq] at hmem
    obtain ⟨hin, -, -⟩ := mem_partitionOrder.mp hmem
    rw [List.getElem?_eq_getElem hin, Option.map_some, rowAt_of_lt hin]
  unfold numberPartition
  dsimp only
  rw [h.partitionOrder_eq, horderEq]
  refine ⟨?_, fun other hother n index hn => ?_, fun other hother n index hn => ?_,
    fun index hindex => ?_⟩
  · rw [length_sessionStep_foldl]
    exact h.length
  · rcases List.mem_append.mp hother with hother | hother
    · rw [hsame index fun hmem => hnew index hmem other hother (List.mem_of_getElem? hn)]
      exact h.numbered other hother n index hn
    · obtain rfl := List.mem_singleton.mp hother
      rw [horderEq] at hn ⊢
      obtain ⟨flag, hflag⟩ := hwalked.numbered n index (List.getElem?_eq_some_iff.mp hn).1 hn
      exact ⟨flag, (hfirst.rows n index index hn hn).trans hflag⟩
  · rcases List.mem_append.mp hother with hother | hother
    · rw [hsame index fun hmem => hnew index hmem other hother (List.mem_of_getElem? hn)]
      exact h.alone other hother n index hn
    · obtain rfl := List.mem_singleton.mp hother
      rw [horderEq] at hn
      have hlength : order.length = (partitionRows rows rules.scope other).length := by
        rw [partitionRows, List.length_map, horderEq]
      have hlt := (List.getElem?_eq_some_iff.mp hn).1
      rw [halone.rows n index n hn (List.getElem?_range (hlength ▸ hlt)), numberedAlone, ← hlength]
  · rw [hsame index fun hmem => hindex key (by simp) (horderEq ▸ hmem),
      h.others index fun other hother => hindex other (List.mem_append_left _ hother)]

theorem mem_sessionPartitions_of_mem {index : Nat} (h : index ∈ partitionOrder rows scope key) :
    key ∈ sessionPartitions rows scope := by
  obtain ⟨hlt, hbounded, hkey⟩ := mem_partitionOrder.mp h
  refine List.mem_dedup.mpr (List.mem_map.mpr ⟨rowAt rows index, ?_, hkey⟩)
  exact List.mem_filter.mpr ⟨mem_rows_of_lt hlt, hbounded⟩

theorem map_rowAt_range (rows : List Row) :
    (List.range rows.length).map (rowAt rows) = rows := by
  refine List.ext_getElem (by simp) fun n hn hn' => ?_
  rw [List.getElem_map, List.getElem_range, rowAt_of_lt hn']

theorem map_rowAt_filter (rows : List Row) (p : Row → Bool) :
    ((List.range rows.length).filter fun index => p (rowAt rows index)).map (rowAt rows) =
      rows.filter p := by
  conv_rhs => rw [← map_rowAt_range rows, List.filter_map]
  rfl

theorem length_numberedAlone (rows : List Row) :
    (numberedAlone formatNumber rules ns rows).length = rows.length :=
  length_sessionStep_foldl _ _ _ _ _

/-- What the table holds afterwards: the other rows, and the partitions, each numbered alone. -/
theorem NumberedIn.perm (h : NumberedIn formatNumber rules ns rows
    (sessionPartitions rows rules.scope) out) :
    out.Perm ((rows.filter fun row => !isBoundedUsage row) ++
      (sessionPartitions rows rules.scope).flatMap fun key =>
        numberedAlone formatNumber rules ns (partitionRows rows rules.scope key)) := by
  -- no partition holds an unbounded row, so each of them stands where it stood
  have hothers : ((List.range rows.length).filter fun index =>
      !isBoundedUsage (rowAt rows index)).map (rowAt out) =
      rows.filter fun row => !isBoundedUsage row := by
    rw [← map_rowAt_filter]
    refine List.map_congr_left fun index hindex => rowAt_congr (h.others index fun key _ hmem => ?_)
    have hbounded := (mem_partitionOrder.mp hmem).2.1
    simp [hbounded] at hindex
  have hpartition : ∀ key ∈ sessionPartitions rows rules.scope,
      (partitionOrder rows rules.scope key).map (rowAt out) =
        numberedAlone formatNumber rules ns (partitionRows rows rules.scope key) := by
    intro key hkey
    refine List.ext_getElem ?_ fun n hn hn' => ?_
    · rw [length_numberedAlone, partitionRows, List.length_map, List.length_map]
    · rw [List.getElem_map]
      have hat := List.getElem?_eq_getElem (List.length_map (rowAt out) ▸ hn)
      have halone := h.alone key hkey n _ hat
      rw [List.getElem?_eq_getElem hn'] at halone
      rw [rowAt, List.getD_eq_getElem?_getD, halone]
      rfl
  -- every bounded row is in the partition of its own key and in no other
  have hgroups : ((List.range rows.length).filter fun index =>
      isBoundedUsage (rowAt rows index)).Perm
      ((sessionPartitions rows rules.scope).flatMap (partitionOrder rows rules.scope)) := by
    refine (perm_flatMap_filter (fun index => sessionPartitionKey (rowAt rows index) rules.scope)
      (List.nodup_dedup _) fun index hindex => ?_).trans (List.Perm.flatMap_left _ fun key _ => ?_)
    · obtain ⟨hindex, hbounded⟩ := List.mem_filter.mp hindex
      exact List.mem_dedup.mpr (List.mem_map.mpr ⟨_, List.mem_filter.mpr
        ⟨mem_rows_of_lt (List.mem_range.mp hindex), hbounded⟩, rfl⟩)
    · rw [List.filter_filter]
      refine (List.Perm.of_eq (List.filter_congr fun index _ => ?_)).trans
        (perm_sortByKey _ _).symm
      exact Bool.and_comm _ _
  have hall : out = (List.range rows.length).map (rowAt out) := by
    rw [← h.length, map_rowAt_range]
  have hsplit := (List.filter_append_perm (fun index => isBoundedUsage (rowAt rows index))
    (List.range rows.length)).symm.trans List.perm_append_comm
  rw [hall]
  refine (hsplit.map (rowAt out)).trans ?_
  rw [List.map_append, hothers]
  refine ((hgroups.map (rowAt out)).trans (List.Perm.of_eq ?_)).append_left _
  rw [List.map_flatMap]
  exact List.flatMap_congr hpartition

end Partitions

/-! ## Connected sessions -/

section Connected

variable {rules : SessionGroupingRules} {ns : Int} {rows rows' out : List Row}

theorem NumberedIn.usageSessionId {formatNumber : Binary64 → String}
    {key : SessionPartitionKey} {n index : Nat}
    (h : NumberedIn formatNumber rules ns rows (sessionPartitions rows rules.scope) out)
    (hindex : (partitionOrder rows rules.scope key)[n]? = some index) :
    (rowAt out index).usageSessionId =
      some (sessionNumber rules ns rows (partitionOrder rows rules.scope key) n) := by
  have hmem := List.mem_of_getElem? hindex
  have hlt := (mem_partitionOrder.mp hmem).1
  obtain ⟨flag, hflag⟩ := h.numbered key (mem_sessionPartitions_of_mem hmem) n index hindex
  rw [rowAt, List.getD_eq_getElem?_getD, hflag, List.getElem?_eq_getElem hlt]
  exact usageSessionId_numberRow _ _ _

end Connected

end Chronicle.Pipeline
