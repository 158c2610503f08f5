import Mathlib.Algebra.Order.Group.Int
import Mathlib.Order.Nat
import Chronicle.Library.Loop
import Chronicle.Matcher.Checked
import Chronicle.Matcher.OpenStartSpecs

/-!
# No access to the lists of open starts is out of bounds

Every cell of a list is below its own place, so a walk goes down and ends. While that holds, the
checked operations return what the unchecked ones do.
-/

namespace Chronicle.Matcher

open Chronicle.Library Chronicle.Library.LazyChain

/-! ## Accesses -/

section Access

variable {α β : Type} {cells : Array α} {i : Nat}

@[simp]
theorem ok_bind (x : α) (f : α → MatcherResult β) : (Except.ok x >>= f) = f x := rfl

@[simp]
theorem pure_eq_ok (x : α) : (pure x : MatcherResult α) = .ok x := rfl

theorem readAt_eq (h : i < cells.size) (dflt : α) : readAt cells i = .ok (cells.getD i dflt) := by
  simp [readAt, h]

theorem writeAt_eq (h : i < cells.size) (value : α) :
    writeAt cells i value = .ok (cells.setIfInBounds i value) :=
  if_pos h

theorem asUsize_of_nonneg {code : Int} (h : 0 ≤ code) : asUsize code = code.toNat :=
  if_neg (not_lt.mpr h)

end Access

/-! ## Walks -/

section Walks

variable {prev : Array Int} {marks : Array Bool} {valid wanted : Nat → Bool}
  {validM wantedM : Nat → MatcherResult Bool} {steps bound : Nat} {cursor : Int}

theorem checkedPruneHead_eq (hdown : ∀ i, prev.getD i (-1) < i) (hprev : bound ≤ prev.size)
    (hmarks : bound ≤ marks.size) (hcursor : cursor < bound) (hsteps : cursor < steps) :
    checkedPruneHead prev marks (steps + 1) cursor =
      .ok (pruneHead (fun i => prev.getD i (-1)) (fun i => marks.getD i false) steps cursor) := by
  induction steps generalizing cursor with
  | zero =>
      have hneg : ¬ 0 ≤ cursor := by omega
      simp [checkedPruneHead, pruneHead, hneg]
  | succ steps ih =>
      rw [checkedPruneHead, pruneHead]
      by_cases hneg : 0 ≤ cursor
      · have hplace : cursor.toNat < bound := by omega
        have hnext := hdown cursor.toNat
        rw [if_pos hneg, readAt_eq (hplace.trans_le hmarks) false,
          readAt_eq (hplace.trans_le hprev) (-1)]
        simp only [ok_bind, hneg, true_and]
        split
        · exact ih (by omega) (by omega)
        · rfl
      · simp [hneg]

/-- The check of a node by the list walks is the one the unchecked walk makes. -/
def ChecksBelow (bound : Nat) (checkM : Nat → MatcherResult Bool) (check : Nat → Bool) : Prop :=
  ∀ i, i < bound → checkM i = .ok (check i)

theorem checkedFind_eq (hdown : ∀ i, prev.getD i (-1) < i) (hprev : bound ≤ prev.size)
    (hmarks : bound ≤ marks.size) (hvalid : ChecksBelow bound validM valid)
    (hwanted : ChecksBelow bound wantedM wanted) (hcursor : cursor < bound)
    (hsteps : cursor < steps) :
    checkedFind prev validM wantedM marks (steps + 1) cursor =
      .ok (findFrom (fun i => prev.getD i (-1)) (fun i => marks.getD i false) valid wanted steps
        cursor) := by
  induction steps generalizing cursor with
  | zero =>
      have hneg : cursor < 0 := by omega
      simp [checkedFind, findFrom, hneg]
  | succ steps ih =>
      rw [checkedFind, findFrom]
      split
      · rfl
      · have hplace : cursor.toNat < bound := by omega
        have hnext := hdown cursor.toNat
        have hlater : checkedFind prev validM wantedM marks (steps + 1)
            (prev.getD cursor.toNat (-1)) = _ := ih (by omega) (by omega)
        rw [readAt_eq (hplace.trans_le hmarks) false, readAt_eq (hplace.trans_le hprev) (-1)]
        simp only [ok_bind, pure_eq_ok, hvalid _ hplace, hwanted _ hplace, hlater]
        split
        · rfl
        · split
          · rfl
          · split <;> rfl

theorem size_collectFrom {next : Nat → Int} :
    (collectFrom next valid wanted steps cursor marks).1.size = marks.size := by
  fun_induction collectFrom next valid wanted steps cursor marks with
  | case5 _ _ _ _ _ _ _ _ updated found heq ih =>
      rw [heq] at ih
      simpa using ih
  | _ => simp_all

theorem checkedCollect_eq (hdown : ∀ i, prev.getD i (-1) < i) (hprev : bound ≤ prev.size)
    (hmarks : bound ≤ marks.size) (hvalid : ChecksBelow bound validM valid)
    (hwanted : ChecksBelow bound wantedM wanted) (hcursor : cursor < bound)
    (hsteps : cursor < steps) :
    checkedCollect prev validM wantedM (steps + 1) cursor marks =
      .ok (collectFrom (fun i => prev.getD i (-1)) valid wanted steps cursor marks) := by
  induction steps generalizing cursor marks with
  | zero =>
      have hneg : cursor < 0 := by omega
      simp [checkedCollect, collectFrom, hneg]
  | succ steps ih =>
      rw [checkedCollect, collectFrom]
      split
      · rfl
      · have hplace : cursor.toNat < bound := by omega
        have hnext := hdown cursor.toNat
        have hlater : ∀ marks : Array Bool, bound ≤ marks.size →
            checkedCollect prev validM wantedM (steps + 1) (prev.getD cursor.toNat (-1)) marks = _ :=
          fun marks hmarks => ih hmarks (by omega) (by omega)
        rw [readAt_eq (hplace.trans_le hmarks) false, readAt_eq (hplace.trans_le hprev) (-1)]
        simp only [ok_bind, pure_eq_ok, hvalid _ hplace, hwanted _ hplace]
        split
        · exact hlater marks hmarks
        · split
          · rfl
          · split
            · rw [writeAt_eq (hplace.trans_le hmarks), ok_bind, hlater _ (by simpa using hmarks)]
              rfl
            · exact hlater marks hmarks

theorem checkedSweep_eq {accepted : Nat → Bool} {acceptedM : Nat → MatcherResult Bool}
    (hdown : ∀ i, prev.getD i (-1) < i) (hprev : bound ≤ prev.size) (hmarks : bound ≤ marks.size)
    (haccepted : ChecksBelow bound acceptedM accepted) (hcursor : cursor < bound)
    (hsteps : cursor < steps) :
    checkedSweep prev acceptedM (steps + 1) cursor marks =
      .ok (sweepFrom (fun i => prev.getD i (-1)) accepted steps cursor marks) := by
  induction steps generalizing cursor marks with
  | zero =>
      have hneg : cursor < 0 := by omega
      simp [checkedSweep, sweepFrom, hneg]
  | succ steps ih =>
      rw [checkedSweep, sweepFrom]
      split
      · rfl
      · have hplace : cursor.toNat < bound := by omega
        have hnext := hdown cursor.toNat
        have hlater : ∀ marks : Array Bool, bound ≤ marks.size →
            checkedSweep prev acceptedM (steps + 1) (prev.getD cursor.toNat (-1)) marks = _ :=
          fun marks hmarks => ih hmarks (by omega) (by omega)
        rw [readAt_eq (hplace.trans_le hmarks) false, readAt_eq (hplace.trans_le hprev) (-1)]
        simp only [ok_bind, pure_eq_ok, haccepted _ hplace]
        split
        · exact hlater marks hmarks
        · split
          · rw [writeAt_eq (hplace.trans_le hmarks), ok_bind, hlater _ (by simpa using hmarks)]
            rfl
          · rw [hlater marks hmarks]
            rfl

end Walks

/-! ## Lists -/

namespace SparseOpenStarts

/-- Every cell lies below its own place, the heads below `bound`, and the vectors have their sizes. -/
structure Inside (a : EventArrays) (s : SparseOpenStarts) (bound : Nat) : Prop where
  bound_le : bound ≤ a.len
  globalPrev_size : s.globalPrev.size = a.len
  appPrev_size : s.appPrev.size = a.len
  closed_size : s.closed.size = a.len
  appHeads_size : s.appHeads.size = a.maxAppCode.toNat + 1
  globalDown : ∀ i, s.globalBefore i < i
  appDown : ∀ i, s.appBefore i < i
  appHead : ∀ slot, s.appHead slot < bound
  globalHead : s.globalHead < bound

variable {a : EventArrays} {s : SparseOpenStarts} {bound : Nat} {appCode : Int}
  {valid predicate : Nat → Bool} {validM predicateM : Nat → MatcherResult Bool}

theorem as_i32_le (index : Nat) : asI32 index ≤ index := by
  unfold asI32
  dsimp only
  split <;> omega

/-- Lists are made for non-negative codes only. -/
theorem codes_of_new (h : new a = .ok s) : a.NonnegativeCodes := by
  unfold new at h
  split at h
  case isTrue => cases h
  case isFalse hnegative =>
    exact EventArrays.hasNegativeCode_eq_false.mp (Bool.eq_false_iff.mpr hnegative)

theorem inside_new (h : new a = .ok s) : s.Inside a 0 := by
  have hempty : ∀ n j, (Array.replicate n (-1 : Int)).getD j (-1) = -1 := by
    intro n j
    rw [Array.getD_eq_getD_getElem?, Array.getElem?_replicate]
    split <;> rfl
  unfold new at h
  split at h
  · cases h
  · cases h
    refine ⟨Nat.zero_le _, by simp, by simp, by simp, by simp, fun i => ?_, fun i => ?_,
      fun slot => ?_, show (-1 : Int) < 0 by decide⟩
    · rw [globalBefore, hempty]
      omega
    · rw [appBefore, hempty]
      omega
    · rw [SparseOpenStarts.appHead, hempty]
      decide

namespace Inside

theorem weaken (h : s.Inside a bound) (hlt : bound < a.len) : s.Inside a (bound + 1) :=
  { h with
    bound_le := hlt
    appHead := fun slot => (h.appHead slot).trans (by omega)
    globalHead := h.globalHead.trans (by omega) }

/-- The slot of an app code of the input. -/
theorem slot (h : s.Inside a bound) (hcode : 0 ≤ appCode) (hmax : appCode ≤ a.maxAppCode) :
    asUsize appCode = appCode.toNat ∧ appCode.toNat < s.appHeads.size := by
  rw [h.appHeads_size]
  exact ⟨asUsize_of_nonneg hcode, by omega⟩

theorem mark (h : s.Inside a bound) {closed : Array Bool} (hsize : closed.size = s.closed.size) :
    ({ s with closed := closed } : SparseOpenStarts).Inside a bound :=
  { h with closed_size := hsize.trans h.closed_size }

theorem globalBelow (h : s.Inside a bound) (i : Nat) (hi : (i : Int) < bound) :
    s.globalBefore i < bound :=
  (h.globalDown i).trans hi

theorem appBelow (h : s.Inside a bound) (i : Nat) (hi : (i : Int) < bound) :
    s.appBefore i < bound :=
  (h.appDown i).trans hi

theorem pruneGlobal (h : s.Inside a bound) : s.pruneGlobalHead.Inside a bound :=
  { h with globalHead := pruneHead_lt h.globalBelow h.globalHead }

theorem pruneApp (h : s.Inside a bound) : (s.pruneAppHead appCode).Inside a bound :=
  { h with
    appHeads_size := Array.size_setIfInBounds.trans h.appHeads_size
    appHead := getD_set_lt h.appHead (pruneHead_lt h.appBelow (h.appHead _)) }

theorem openNext (h : s.Inside a bound) (hlt : bound < a.len) :
    (s.openStart bound appCode).Inside a (bound + 1) where
  bound_le := hlt
  globalPrev_size := Array.size_setIfInBounds.trans h.globalPrev_size
  appPrev_size := Array.size_setIfInBounds.trans h.appPrev_size
  closed_size := h.closed_size
  appHeads_size := Array.size_setIfInBounds.trans h.appHeads_size
  globalDown := fun i => by
    simp only [openStart, globalBefore, getD_set]
    split
    · case isTrue heq => exact heq.1 ▸ h.globalHead
    · exact h.globalDown i
  appDown := fun i => by
    simp only [openStart, appBefore, getD_set]
    split
    · case isTrue heq => exact heq.1 ▸ h.appHead _
    · exact h.appDown i
  appHead := getD_set_lt (fun slot => (h.appHead slot).trans (by omega)) (by
    have hcell := as_i32_le bound
    omega)
  globalHead := by
    have hcell := as_i32_le bound
    change asI32 bound < _
    omega

/-! ### The checked operations -/

theorem checkedPruneGlobal_eq (h : s.Inside a bound) :
    s.checkedPruneGlobal = .ok s.pruneGlobalHead := by
  have hbound := h.bound_le
  have hhead := h.globalHead
  have hwalk : checkedPruneHead s.globalPrev s.closed (s.closed.size + 1) s.globalHead = _ :=
    checkedPruneHead_eq h.globalDown (h.globalPrev_size ▸ hbound) (h.closed_size ▸ hbound) hhead
      (by rw [h.closed_size]; omega)
  rw [checkedPruneGlobal, steps, hwalk]
  rfl

theorem checkedPruneApp_eq (h : s.Inside a bound) (hcode : 0 ≤ appCode)
    (hmax : appCode ≤ a.maxAppCode) : s.checkedPruneApp appCode = .ok (s.pruneAppHead appCode) := by
  obtain ⟨hslot, hinside⟩ := h.slot hcode hmax
  have hbound := h.bound_le
  have hhead := h.appHead appCode.toNat
  have hwalk : checkedPruneHead s.appPrev s.closed (s.closed.size + 1)
      (s.appHead appCode.toNat) = _ :=
    checkedPruneHead_eq h.appDown (h.appPrev_size ▸ hbound) (h.closed_size ▸ hbound) hhead
      (by rw [h.closed_size]; omega)
  rw [checkedPruneApp, hslot, readAt_eq hinside (-1)]
  change (checkedPruneHead _ _ (s.closed.size + 1) (s.appHead appCode.toNat) >>= _) = _
  rw [hwalk, ok_bind, writeAt_eq hinside]
  rfl

theorem checkedOpen_eq (h : s.Inside a bound) (hlt : bound < a.len) (hcode : 0 ≤ appCode)
    (hmax : appCode ≤ a.maxAppCode) :
    s.checkedOpen bound appCode = .ok (s.openStart bound appCode) := by
  obtain ⟨hslot, hinside⟩ := h.slot hcode hmax
  have hglobal : bound < s.globalPrev.size := h.globalPrev_size ▸ hlt
  have happ : bound < s.appPrev.size := h.appPrev_size ▸ hlt
  rw [checkedOpen, hslot, writeAt_eq hglobal, readAt_eq hinside (-1)]
  simp only [ok_bind, writeAt_eq happ, writeAt_eq hinside]
  rfl

theorem checkedClose_eq (h : s.Inside a bound) {index : Nat} (hindex : index < bound) :
    s.checkedClose index = .ok (s.closeStart index) := by
  have hsize : index < s.closed.size := h.closed_size ▸ hindex.trans_le h.bound_le
  rw [checkedClose, writeAt_eq hsize]
  rfl

theorem checkedLatestSameApp_eq (h : s.Inside a bound) (hcode : 0 ≤ appCode)
    (hmax : appCode ≤ a.maxAppCode) (hvalid : ChecksBelow bound validM valid) :
    s.checkedLatestSameApp appCode validM = .ok (s.latestSameApp appCode valid) := by
  have hpruned : (s.pruneAppHead appCode).Inside a bound := h.pruneApp
  obtain ⟨hslot, hinside⟩ := hpruned.slot hcode hmax
  have hhead := hpruned.appHead appCode.toNat
  have hread : readAt (s.pruneAppHead appCode).appHeads appCode.toNat =
      .ok ((s.pruneAppHead appCode).appHead appCode.toNat) := readAt_eq hinside (-1)
  rw [checkedLatestSameApp, h.checkedPruneApp_eq hcode hmax, ok_bind, hslot, hread, ok_bind,
    latestSameApp]
  split
  · rfl
  · have hplace : ((s.pruneAppHead appCode).appHead appCode.toNat).toNat < bound := by omega
    rw [hvalid _ hplace, ok_bind]
    split <;> rfl

theorem checkedLatestMatchingGlobal_eq (h : s.Inside a bound)
    (hvalid : ChecksBelow bound validM valid)
    (hpredicate : ChecksBelow bound predicateM predicate) :
    s.checkedLatestMatchingGlobal validM predicateM =
      .ok (s.latestMatchingGlobal valid predicate) := by
  have hpruned := h.pruneGlobal
  have hbound := h.bound_le
  have hhead := hpruned.globalHead
  have hwalk : checkedFind s.pruneGlobalHead.globalPrev validM predicateM s.pruneGlobalHead.closed
      (s.pruneGlobalHead.closed.size + 1) s.pruneGlobalHead.globalHead = _ :=
    checkedFind_eq hpruned.globalDown (hpruned.globalPrev_size ▸ hbound)
      (hpruned.closed_size ▸ hbound) hvalid hpredicate hhead (by rw [hpruned.closed_size]; omega)
  rw [checkedLatestMatchingGlobal, h.checkedPruneGlobal_eq, ok_bind, steps, hwalk]
  rfl

theorem collected (h : s.Inside a bound) {next : Nat → Int} {fuel : Nat} {head : Int} :
    ({ s with closed := (collectFrom next valid predicate fuel head s.closed).1 } :
      SparseOpenStarts).Inside a bound :=
  h.mark size_collectFrom

theorem checkedCloseSameAppMatches_eq (h : s.Inside a bound) (hcode : 0 ≤ appCode)
    (hmax : appCode ≤ a.maxAppCode) (hvalid : ChecksBelow bound validM valid) :
    s.checkedCloseSameAppMatches appCode validM = .ok (s.closeSameAppMatches appCode valid) := by
  have hpruned : (s.pruneAppHead appCode).Inside a bound := h.pruneApp
  obtain ⟨hslot, hinside⟩ := hpruned.slot hcode hmax
  have hbound := h.bound_le
  have hhead := hpruned.appHead appCode.toNat
  have hwalk : checkedCollect (s.pruneAppHead appCode).appPrev validM (fun _ => pure true)
      ((s.pruneAppHead appCode).closed.size + 1) ((s.pruneAppHead appCode).appHead appCode.toNat)
      (s.pruneAppHead appCode).closed = _ :=
    checkedCollect_eq hpruned.appDown (hpruned.appPrev_size ▸ hbound)
      (hpruned.closed_size ▸ hbound) hvalid (fun _ _ => rfl) hhead
      (by rw [hpruned.closed_size]; omega)
  rw [checkedCloseSameAppMatches, h.checkedPruneApp_eq hcode hmax, ok_bind, hslot,
    readAt_eq hinside (-1), ok_bind]
  change (checkedCollect _ _ _ ((s.pruneAppHead appCode).closed.size + 1)
    ((s.pruneAppHead appCode).appHead appCode.toNat) _ >>= _) = _
  rw [hwalk, ok_bind]
  change (SparseOpenStarts.checkedPruneApp _ appCode >>= _) = _
  rw [hpruned.collected.checkedPruneApp_eq hcode hmax, ok_bind,
    hpruned.collected.pruneApp.checkedPruneGlobal_eq]
  rfl

theorem checkedCloseMatchingGlobal_eq (h : s.Inside a bound)
    (hvalid : ChecksBelow bound validM valid)
    (hpredicate : ChecksBelow bound predicateM predicate) :
    s.checkedCloseMatchingGlobal validM predicateM =
      .ok (s.closeMatchingGlobal valid predicate) := by
  have hpruned := h.pruneGlobal
  have hbound := h.bound_le
  have hhead := hpruned.globalHead
  have hwalk : checkedCollect s.pruneGlobalHead.globalPrev validM predicateM
      (s.pruneGlobalHead.closed.size + 1) s.pruneGlobalHead.globalHead
      s.pruneGlobalHead.closed = _ :=
    checkedCollect_eq hpruned.globalDown (hpruned.globalPrev_size ▸ hbound)
      (hpruned.closed_size ▸ hbound) hvalid hpredicate hhead (by rw [hpruned.closed_size]; omega)
  rw [checkedCloseMatchingGlobal, h.checkedPruneGlobal_eq, ok_bind, steps, hwalk, ok_bind]
  change (SparseOpenStarts.checkedPruneGlobal _ >>= _) = _
  rw [hpruned.collected.checkedPruneGlobal_eq]
  rfl

theorem checkedFinish_eq {accepted : Nat → Bool} {acceptedM : Nat → MatcherResult Bool}
    (h : s.Inside a bound) (haccepted : ChecksBelow bound acceptedM accepted) :
    s.checkedFinish acceptedM = .ok (s.finishOpenStarts accepted) := by
  have hpruned := h.pruneGlobal
  have hbound := h.bound_le
  have hhead := hpruned.globalHead
  have hwalk : checkedSweep s.pruneGlobalHead.globalPrev acceptedM
      (s.pruneGlobalHead.closed.size + 1) s.pruneGlobalHead.globalHead
      s.pruneGlobalHead.closed = _ :=
    checkedSweep_eq hpruned.globalDown (hpruned.globalPrev_size ▸ hbound)
      (hpruned.closed_size ▸ hbound) haccepted hhead (by rw [hpruned.closed_size]; omega)
  rw [checkedFinish, h.checkedPruneGlobal_eq, ok_bind, steps, hwalk]
  rfl

/-! ### What the operations keep and find -/

theorem latestSameApp (h : s.Inside a bound) :
    (s.latestSameApp appCode valid).1.Inside a bound ∧
      ∀ start ∈ (s.latestSameApp appCode valid).2, start < bound := by
  have hpruned : (s.pruneAppHead appCode).Inside a bound := h.pruneApp
  have hhead := hpruned.appHead appCode.toNat
  unfold SparseOpenStarts.latestSameApp
  dsimp only
  split
  · exact ⟨hpruned, by simp⟩
  · split
    · exact ⟨hpruned, by simp⟩
    · refine ⟨hpruned, fun start hstart => ?_⟩
      obtain rfl := Option.mem_some.mp hstart
      omega

theorem latestMatchingGlobal (h : s.Inside a bound) :
    (s.latestMatchingGlobal valid predicate).1.Inside a bound ∧
      ∀ start ∈ (s.latestMatchingGlobal valid predicate).2, start < bound := by
  refine ⟨h.pruneGlobal, fun start hstart => ?_⟩
  have hlt := findFrom_lt h.pruneGlobal.globalBelow h.pruneGlobal.globalHead hstart
  omega

theorem closeSameAppMatches (h : s.Inside a bound) :
    (s.closeSameAppMatches appCode valid).1.Inside a bound ∧
      ∀ start ∈ (s.closeSameAppMatches appCode valid).2, start < bound := by
  have hpruned : (s.pruneAppHead appCode).Inside a bound := h.pruneApp
  refine ⟨(hpruned.collected.pruneApp).pruneGlobal, fun start hstart => ?_⟩
  have hlt := collectFrom_lt hpruned.appBelow (hpruned.appHead _) start hstart
  omega

theorem closeMatchingGlobal (h : s.Inside a bound) :
    (s.closeMatchingGlobal valid predicate).1.Inside a bound ∧
      ∀ start ∈ (s.closeMatchingGlobal valid predicate).2, start < bound := by
  refine ⟨h.pruneGlobal.collected.pruneGlobal, fun start hstart => ?_⟩
  have hlt := collectFrom_lt h.pruneGlobal.globalBelow h.pruneGlobal.globalHead start hstart
  omega

end Inside

end SparseOpenStarts

end Chronicle.Matcher
