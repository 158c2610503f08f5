import Chronicle.Matcher.SparseOpenStarts

/-!
# What the list operations do to the open starts

One specification for each operation of `SparseOpenStarts`, in terms of the open starts its lists
hold: which starts a search returns, and which starts remain open.
-/

namespace Chronicle.Matcher

open Chronicle.Library.LazyChain

namespace EventArrays

variable {a : EventArrays}

/-- An app code is an element of the app-code array. -/
theorem appCode_mem {i : Nat} (hi : i < a.len) : a.appCode i ∈ a.appCodes.toList := by
  have hsize : i < a.appCodes.size := hi
  simp [appCode, Array.getD_eq_getD_getElem?, hsize]

/-- No app code exceeds the largest one. -/
theorem appCode_le_max {i : Nat} (hi : i < a.len) : a.appCode i ≤ a.maxAppCode := by
  have hmem := appCode_mem hi
  unfold maxAppCode
  cases hmax : a.appCodes.toList.max? with
  | none => simp [List.max?_eq_none_iff.mp hmax] at hmem
  | some code => exact (List.max?_eq_some_iff.mp hmax).2 _ hmem

/-- The check for a negative code finds one exactly when there is one. -/
theorem hasNegativeCode_eq_false : a.hasNegativeCode = false ↔ a.NonnegativeCodes := by
  simp only [hasNegativeCode, NonnegativeCodes, Array.any_eq_false, decide_eq_true_eq]
  constructor
  · intro h i hi
    have hi' : i < a.appCodes.size := hi
    have hcode := h i hi'
    rw [appCode, Array.getD_eq_getD_getElem?, Array.getElem?_eq_getElem hi', Option.getD_some]
    omega
  · intro h i hi
    have hcode := h i hi
    rw [appCode, Array.getD_eq_getD_getElem?, Array.getElem?_eq_getElem hi,
      Option.getD_some] at hcode
    omega

end EventArrays

namespace SparseOpenStarts

variable {a : EventArrays} {s : SparseOpenStarts} {bound : Nat} {opens : List Nat}

/-- The lists of one app see only that app's open starts. -/
def ofApp (a : EventArrays) (appCode : Int) (opens : List Nat) : List Nat :=
  opens.filter fun start => (a.appCode start).toNat == appCode.toNat

/-- New lists hold no open start. -/
theorem new_represents {s : SparseOpenStarts} (h : new a = .ok s) : s.Represents a 0 [] := by
  unfold new at h
  split at h
  · cases h
  · cases h
    exact {
      bound_le := Nat.zero_le _
      globalPrev_size := by simp
      appPrev_size := by simp
      closed_size := by simp
      appHeads_size := by simp
      fresh := by
        intro i _
        simp only [isClosed, Array.getD_eq_getD_getElem?, Array.getElem?_replicate]
        split <;> rfl
      global := ⟨[], .nil (show (-1 : Int) < 0 by decide), by simp⟩
      app := by
        intro slot
        refine ⟨[], .nil ?_, by simp⟩
        simp only [appHead, Array.getD_eq_getD_getElem?, Array.getElem?_replicate]
        split <;> decide }

/-- New lists are refused exactly when a code is negative. -/
theorem new_ok (h : a.NonnegativeCodes) : ∃ s, new a = .ok s := by
  rw [← EventArrays.hasNegativeCode_eq_false] at h
  exact ⟨_, by rw [new, h]; rfl⟩

/-- Opening the next event appends it to the open starts, if its index fits a list cell. -/
theorem Represents.openNext (h : s.Represents a bound opens) (hlt : bound < a.len)
    (hfit : bound < 2 ^ 31) :
    (s.openStart bound (a.appCode bound)).Represents a (bound + 1) (opens ++ [bound]) := by
  have hcell : asI32 bound = bound := as_i32_of_lt hfit
  have hfresh : s.isClosed bound = false := h.fresh bound (Nat.le_refl _)
  have hmax := EventArrays.appCode_le_max hlt
  have hslot : (a.appCode bound).toNat < s.appHeads.size := by
    rw [h.appHeads_size]
    omega
  -- only the cell of the new start changes, so every older chain is read back as it was
  have hglobalBefore : ∀ i, (s.openStart bound (a.appCode bound)).globalBefore i =
      if bound = i then s.globalHead else s.globalBefore i := by
    intro i
    have hsize : bound < s.globalPrev.size := by rwa [h.globalPrev_size]
    simp only [openStart, globalBefore, getD_set, hsize, and_true]
  have happBefore : ∀ i, (s.openStart bound (a.appCode bound)).appBefore i =
      if bound = i then s.appHead (a.appCode bound).toNat else s.appBefore i := by
    intro i
    have hsize : bound < s.appPrev.size := by rwa [h.appPrev_size]
    simp only [openStart, appBefore, getD_set, hsize, and_true]
  have happHead : ∀ slot, (s.openStart bound (a.appCode bound)).appHead slot =
      if (a.appCode bound).toNat = slot then (bound : Int) else s.appHead slot := by
    intro slot
    simp only [openStart, appHead, getD_set, hslot, and_true, hcell]
  exact {
    bound_le := hlt
    globalPrev_size := by simp [openStart, h.globalPrev_size]
    appPrev_size := by simp [openStart, h.appPrev_size]
    closed_size := h.closed_size
    appHeads_size := by simp [openStart, h.appHeads_size]
    fresh := fun i hi => h.fresh i (by omega)
    global := by
      obtain ⟨nodes, hchain, hdec, hnodes, hopen⟩ := h.global
      have hhead : (s.openStart bound (a.appCode bound)).globalHead = (bound : Int) := hcell
      refine ⟨bound :: nodes, ?_, ?_, ?_, ?_⟩
      · rw [hhead]
        refine .cons ?_
        rw [hglobalBefore, if_pos rfl]
        refine hchain.congr fun node hmem => ?_
        have hne : bound ≠ node := by
          have := hnodes node hmem
          omega
        rw [hglobalBefore, if_neg hne]
      · exact List.pairwise_cons.mpr ⟨hnodes, hdec⟩
      · intro node hmem
        rcases List.mem_cons.mp hmem with rfl | hmem
        · omega
        · have := hnodes node hmem
          omega
      · have hkeep : (nodes.filter fun node =>
            !(s.openStart bound (a.appCode bound)).isClosed node) = opens.reverse := hopen
        have hnew : (s.openStart bound (a.appCode bound)).isClosed bound = false := hfresh
        simp [hnew, hkeep]
    app := by
      intro slot
      obtain ⟨nodes, hchain, hdec, hnodes, hopen⟩ := h.app slot
      have hcongr : Chain (s.openStart bound (a.appCode bound)).appBefore (s.appHead slot)
          nodes := by
        refine hchain.congr fun node hmem => ?_
        have hne : bound ≠ node := by
          have := hnodes node hmem
          omega
        rw [happBefore, if_neg hne]
      have hkeep : (nodes.filter fun node =>
          !(s.openStart bound (a.appCode bound)).isClosed node) =
            (opens.filter fun start => (a.appCode start).toNat == slot).reverse := hopen
      have hnew : (s.openStart bound (a.appCode bound)).isClosed bound = false := hfresh
      -- the new start heads the chain of its own app and leaves every other chain alone
      by_cases hown : (a.appCode bound).toNat = slot
      · refine ⟨bound :: nodes, ?_, List.pairwise_cons.mpr ⟨hnodes, hdec⟩, ?_, ?_⟩
        · rw [happHead, if_pos hown]
          refine .cons ?_
          rw [happBefore, if_pos rfl, hown]
          exact hcongr
        · intro node hmem
          rcases List.mem_cons.mp hmem with rfl | hmem
          · omega
          · have := hnodes node hmem
            omega
        · simp [hnew, hkeep, hown]
      · refine ⟨nodes, ?_, hdec, fun node hmem => Nat.lt_succ_of_lt (hnodes node hmem), ?_⟩
        · rw [happHead, if_neg hown]
          exact hcongr
        · rw [hkeep, List.filter_append]
          simp [hown] }

/-- The search in one app's list returns its newest open start, if that start is valid. -/
theorem Represents.latestSameApp_found (h : s.Represents a bound opens) (appCode : Int)
    (valid : Nat → Bool) :
    (s.latestSameApp appCode valid).2 = ((ofApp a appCode opens).reverse.head?).filter valid := by
  obtain ⟨nodes, hchain, hdec, hnodes, hopen⟩ := h.app appCode.toNat
  have hpruned := (h.pruneApp appCode).app appCode.toNat
  have hcursor : Chain s.appBefore ((s.pruneAppHead appCode).appHead appCode.toNat)
      (nodes.dropWhile s.isClosed) := by
    have hhead : (s.pruneAppHead appCode).appHead appCode.toNat =
        if appCode.toNat = appCode.toNat ∧ appCode.toNat < s.appHeads.size then
          pruneHead s.appBefore s.isClosed s.fuel (s.appHead appCode.toNat)
        else s.appHead appCode.toNat := getD_set _ _ _ _ _
    by_cases hslot : appCode.toNat < s.appHeads.size
    · rw [hhead, if_pos ⟨rfl, hslot⟩]
      exact pruneHead_chain hchain (h.fuel_ge hdec hnodes)
    · have hneg : s.appHead appCode.toNat < 0 := by
        rw [appHead, Array.getD_eq_getD_getElem?, Array.getElem?_eq_none (by omega)]
        decide
      rw [hhead, if_neg fun hand => hslot hand.2, hchain.nil_of_neg hneg]
      exact .nil hneg
  -- pruning drops closed starts off the front and no open one
  have hopens : (ofApp a appCode opens).reverse =
      (nodes.dropWhile s.isClosed).filter fun node => !s.isClosed node := by
    rw [filter_dropWhile, hopen]
    rfl
  rw [hopens]
  unfold latestSameApp
  dsimp only
  generalize (s.pruneAppHead appCode).appHead appCode.toNat = cursor at hcursor ⊢
  cases hdrop : nodes.dropWhile s.isClosed with
  | nil =>
      rw [hdrop] at hcursor
      cases hcursor with
      | nil hneg => simp [hneg]
  | cons node rest =>
      rw [hdrop] at hcursor
      have hnode : s.isClosed node = false := by
        have hhead := List.head?_dropWhile_not s.isClosed nodes
        rw [hdrop] at hhead
        simpa using hhead
      cases hcursor with
      | cons _ =>
          have hpos : ¬ (node : Int) < 0 := by omega
          cases hvalid : valid node <;> simp [hpos, hnode, hvalid, Option.filter]

theorem Represents.latestSameApp_represents (h : s.Represents a bound opens) (appCode : Int)
    (valid : Nat → Bool) : (s.latestSameApp appCode valid).1.Represents a bound opens := by
  have hpruned := h.pruneApp appCode
  unfold latestSameApp
  dsimp only
  split_ifs <;> exact hpruned

/-- The search over all apps inspects the open starts from the newest on, and stops at the first
one that is not valid. -/
theorem Represents.latestMatchingGlobal_found (h : s.Represents a bound opens)
    (valid predicate : Nat → Bool) :
    (s.latestMatchingGlobal valid predicate).2 =
      (opens.reverse.takeWhile valid).find? predicate := by
  obtain ⟨nodes, hchain, hdec, hnodes, hopen⟩ := h.pruneGlobal.global
  rw [← hopen]
  exact findFrom_eq hchain (h.pruneGlobal.fuel_ge hdec hnodes)

theorem Represents.latestMatchingGlobal_represents (h : s.Represents a bound opens)
    (valid predicate : Nat → Bool) :
    (s.latestMatchingGlobal valid predicate).1.Represents a bound opens :=
  h.pruneGlobal

/-- Reuse within one app closes its open starts from the newest on, up to the first not valid. -/
theorem Represents.closeSameApp_spec (h : s.Represents a bound opens) (appCode : Int)
    (valid : Nat → Bool) :
    (s.closeSameAppMatches appCode valid).2 =
        (ofApp a appCode opens).reverse.takeWhile valid ∧
      (s.closeSameAppMatches appCode valid).1.Represents a bound
        (opens.filter fun start => start ∉ (s.closeSameAppMatches appCode valid).2) := by
  have hpruned := h.pruneApp appCode
  obtain ⟨nodes, hchain, hdec, hnodes, hopen⟩ := hpruned.app appCode.toNat
  have hnodup : nodes.Nodup := hdec.imp fun hgt => Nat.ne_of_gt hgt
  have hfound : (s.closeSameAppMatches appCode valid).2 =
      (ofApp a appCode opens).reverse.takeWhile valid := by
    have hcollect := collectFrom_found valid (fun _ => true) (s.pruneAppHead appCode).closed hchain
      (hpruned.fuel_ge hdec hnodes) hnodup
    have hopen' : (nodes.filter fun node => !(s.pruneAppHead appCode).closed.getD node false) =
        (ofApp a appCode opens).reverse := hopen
    rw [hopen', List.filter_true] at hcollect
    exact hcollect
  refine ⟨hfound, ?_⟩
  have hmem : ∀ i ∈ (s.closeSameAppMatches appCode valid).2, i < bound := by
    intro i hi
    rw [hfound] at hi
    have hin := (List.takeWhile_sublist _).mem hi
    exact (h.mem_open (List.mem_of_mem_filter (List.mem_reverse.mp hin))).1
  have hmarked := hpruned.mark (collectFrom (s.pruneAppHead appCode).appBefore valid
      (fun _ => true) (s.pruneAppHead appCode).fuel
      ((s.pruneAppHead appCode).appHead appCode.toNat) (s.pruneAppHead appCode).closed).1
    (s.closeSameAppMatches appCode valid).2
    (by rw [collectFrom_size]; exact hpruned.closed_size)
    (fun i hi => collectFrom_marks (by rw [hpruned.closed_size]; exact hi)) hmem
  exact (hmarked.pruneApp appCode).pruneGlobal

/-- Reuse over all apps closes the matching open starts from the newest on, up to the first one
that is not valid. -/
theorem Represents.closeGlobal_spec (h : s.Represents a bound opens)
    (valid predicate : Nat → Bool) :
    (s.closeMatchingGlobal valid predicate).2 =
        (opens.reverse.takeWhile valid).filter predicate ∧
      (s.closeMatchingGlobal valid predicate).1.Represents a bound
        (opens.filter fun start => start ∉ (s.closeMatchingGlobal valid predicate).2) := by
  have hpruned := h.pruneGlobal
  obtain ⟨nodes, hchain, hdec, hnodes, hopen⟩ := hpruned.global
  have hnodup : nodes.Nodup := hdec.imp fun hgt => Nat.ne_of_gt hgt
  have hfound : (s.closeMatchingGlobal valid predicate).2 =
      (opens.reverse.takeWhile valid).filter predicate := by
    have hcollect := collectFrom_found valid predicate s.pruneGlobalHead.closed hchain
      (hpruned.fuel_ge hdec hnodes) hnodup
    have hopen' : (nodes.filter fun node => !s.pruneGlobalHead.closed.getD node false) =
        opens.reverse := hopen
    rw [hopen'] at hcollect
    exact hcollect
  refine ⟨hfound, ?_⟩
  have hmem : ∀ i ∈ (s.closeMatchingGlobal valid predicate).2, i < bound := by
    intro i hi
    rw [hfound] at hi
    have hin := (List.takeWhile_sublist _).mem (List.mem_of_mem_filter hi)
    exact (h.mem_open (List.mem_reverse.mp hin)).1
  have hmarked := hpruned.mark (collectFrom s.pruneGlobalHead.globalBefore valid
      predicate s.pruneGlobalHead.fuel s.pruneGlobalHead.globalHead s.pruneGlobalHead.closed).1
    (s.closeMatchingGlobal valid predicate).2
    (by rw [collectFrom_size]; exact hpruned.closed_size)
    (fun i hi => collectFrom_marks (by rw [hpruned.closed_size]; exact hi)) hmem
  exact hmarked.pruneGlobal

/-- The final sweep splits the open starts, newest first. -/
theorem Represents.finish_found (h : s.Represents a bound opens) (accepted : Nat → Bool) :
    (s.finishOpenStarts accepted).2 =
      (opens.reverse.filter accepted, opens.reverse.filter fun start => !accepted start) := by
  have hpruned := h.pruneGlobal
  obtain ⟨nodes, hchain, hdec, hnodes, hopen⟩ := hpruned.global
  have hnodup : nodes.Nodup := hdec.imp fun hgt => Nat.ne_of_gt hgt
  have hsweep := sweepFrom_found accepted s.pruneGlobalHead.closed hchain
    (hpruned.fuel_ge hdec hnodes) hnodup
  have hopen' : (nodes.filter fun node => !s.pruneGlobalHead.closed.getD node false) =
      opens.reverse := hopen
  rw [hopen'] at hsweep
  exact hsweep

end SparseOpenStarts

end Chronicle.Matcher
