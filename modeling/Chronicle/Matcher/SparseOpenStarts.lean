import Chronicle.Library.LazyChain
import Chronicle.Matcher.Basic
import Mathlib.Algebra.Group.Nat.Defs
import Mathlib.Algebra.Ring.Int.Defs

/-!
# The open starts of the list-based matchers

`SparseOpenStarts` keeps the open starts in two lazily pruned lists, one over all apps and one
for each app. List cells are `i32`, so an index is stored through `index as i32`. The functions
are the code's own. Each takes the number of nodes as the fuel of its walks.
-/

namespace Chronicle.Matcher

open Chronicle.Library.LazyChain

/-- `index as i32`: the low 32 bits, with the values from `2 ^ 31` on read as negative. -/
def asI32 (index : Nat) : Int :=
  let low := index % 4294967296
  if low < 2147483648 then (low : Int) else (low : Int) - 4294967296

/-- An index below `2 ^ 31` is stored unchanged. -/
theorem as_i32_of_lt {index : Nat} (h : index < 2 ^ 31) : asI32 index = index := by
  unfold asI32
  dsimp only
  split_ifs <;> omega

/-- A stored cell is always below `2 ^ 31`. -/
theorem as_i32_lt (index : Nat) : asI32 index < 2 ^ 31 := by
  unfold asI32
  dsimp only
  split_ifs <;> omega

/-- The threaded lists of open starts. A negative cell ends a list. -/
structure SparseOpenStarts where
  globalPrev : Array Int
  appPrev : Array Int
  closed : Array Bool
  appHeads : Array Int
  globalHead : Int
deriving DecidableEq, Repr

namespace SparseOpenStarts

/-- `SparseOpenStarts::new`. -/
def new (a : EventArrays) : MatcherResult SparseOpenStarts :=
  if a.hasNegativeCode then .error negativeCodeError
  else
    .ok {
      globalPrev := Array.replicate a.len (-1)
      appPrev := Array.replicate a.len (-1)
      closed := Array.replicate a.len false
      appHeads := Array.replicate (a.maxAppCode.toNat + 1) (-1)
      globalHead := -1 }

variable (s : SparseOpenStarts)

/-- The predecessor cell of a node in the list over all apps. -/
def globalBefore (index : Nat) : Int := s.globalPrev.getD index (-1)

/-- The predecessor cell of a node in its app's list. -/
def appBefore (index : Nat) : Int := s.appPrev.getD index (-1)

/-- `self.closed[index]`. -/
def isClosed (index : Nat) : Bool := s.closed.getD index false

/-- `self.app_heads[slot]`. -/
def appHead (slot : Nat) : Int := s.appHeads.getD slot (-1)

/-- The number of nodes, which bounds the length of every walk. -/
def fuel : Nat := s.closed.size

/-- Push a start on both lists. -/
def openStart (index : Nat) (appCode : Int) : SparseOpenStarts :=
  let slot := appCode.toNat
  { s with
    globalPrev := s.globalPrev.setIfInBounds index s.globalHead
    appPrev := s.appPrev.setIfInBounds index (s.appHead slot)
    globalHead := asI32 index
    appHeads := s.appHeads.setIfInBounds slot (asI32 index) }

/-- Mark a start closed. The lists drop it later. -/
def closeStart (index : Nat) : SparseOpenStarts :=
  { s with closed := s.closed.setIfInBounds index true }

/-- `prune_global_head`. -/
def pruneGlobalHead : SparseOpenStarts :=
  { s with globalHead := pruneHead s.globalBefore s.isClosed s.fuel s.globalHead }

/-- `prune_app_head`. -/
def pruneAppHead (appCode : Int) : SparseOpenStarts :=
  let slot := appCode.toNat
  { s with
    appHeads := s.appHeads.setIfInBounds slot
      (pruneHead s.appBefore s.isClosed s.fuel (s.appHead slot)) }

/-- `latest_same_app`: the newest open start of the app, if its duration is valid. -/
def latestSameApp (appCode : Int) (valid : Nat → Bool) : SparseOpenStarts × Option Nat :=
  let pruned := s.pruneAppHead appCode
  let cursor := pruned.appHead appCode.toNat
  if cursor < 0 then (pruned, none)
  else if !valid cursor.toNat then (pruned, none)
  else (pruned, some cursor.toNat)

/-- `latest_matching_global`. -/
def latestMatchingGlobal (valid predicate : Nat → Bool) : SparseOpenStarts × Option Nat :=
  let pruned := s.pruneGlobalHead
  (pruned, findFrom pruned.globalBefore pruned.isClosed valid predicate pruned.fuel
    pruned.globalHead)

/-- `close_same_app_matches`, with the starts it closes in order. -/
def closeSameAppMatches (appCode : Int) (valid : Nat → Bool) : SparseOpenStarts × List Nat :=
  let pruned := s.pruneAppHead appCode
  let (closed, found) := collectFrom pruned.appBefore valid (fun _ => true) pruned.fuel
    (pruned.appHead appCode.toNat) pruned.closed
  let updated := { pruned with closed := closed }
  ((updated.pruneAppHead appCode).pruneGlobalHead, found)

/-- `close_matching_global`, with the starts it closes in order. -/
def closeMatchingGlobal (valid predicate : Nat → Bool) : SparseOpenStarts × List Nat :=
  let pruned := s.pruneGlobalHead
  let (closed, found) := collectFrom pruned.globalBefore valid predicate pruned.fuel
    pruned.globalHead pruned.closed
  let updated := { pruned with closed := closed }
  (updated.pruneGlobalHead, found)

/-- `finish_open_starts`: the starts the last event closes, and those left without an end. -/
def finishOpenStarts (accepted : Nat → Bool) : SparseOpenStarts × List Nat × List Nat :=
  let pruned := s.pruneGlobalHead
  let (closed, stops, missing) := sweepFrom pruned.globalBefore accepted pruned.fuel
    pruned.globalHead pruned.closed
  ({ pruned with closed := closed }, stops, missing)

end SparseOpenStarts

/-- The lists of `s` hold exactly the open starts `opens`, oldest first, all below `bound`. -/
structure SparseOpenStarts.Represents (a : EventArrays) (s : SparseOpenStarts) (bound : Nat)
    (opens : List Nat) : Prop where
  bound_le : bound ≤ a.len
  globalPrev_size : s.globalPrev.size = a.len
  appPrev_size : s.appPrev.size = a.len
  closed_size : s.closed.size = a.len
  appHeads_size : s.appHeads.size = a.maxAppCode.toNat + 1
  /-- Nothing at or past `bound` is marked. -/
  fresh : ∀ i, bound ≤ i → s.isClosed i = false
  /-- The list over all apps. -/
  global : ∃ nodes, Chain s.globalBefore s.globalHead nodes ∧ nodes.Pairwise (· > ·) ∧
    (∀ node ∈ nodes, node < bound) ∧
    nodes.filter (fun node => !s.isClosed node) = opens.reverse
  /-- The list of one app. -/
  app : ∀ slot, ∃ nodes, Chain s.appBefore (s.appHead slot) nodes ∧ nodes.Pairwise (· > ·) ∧
    (∀ node ∈ nodes, node < bound) ∧
    nodes.filter (fun node => !s.isClosed node) =
      (opens.filter fun start => (a.appCode start).toNat == slot).reverse

namespace SparseOpenStarts.Represents

variable {a : EventArrays} {s : SparseOpenStarts} {bound : Nat} {opens : List Nat}

theorem fuel_ge (h : s.Represents a bound opens) {nodes : List Nat}
    (hdec : nodes.Pairwise (· > ·)) (hlt : ∀ node ∈ nodes, node < bound) :
    nodes.length ≤ s.fuel := by
  have hlen := length_le_of_decreasing hdec hlt
  have hbound := h.bound_le
  rw [fuel, h.closed_size]
  omega

/-- The open starts are in increasing order. -/
theorem increasing (h : s.Represents a bound opens) : opens.Pairwise (· < ·) := by
  obtain ⟨nodes, -, hdec, -, hnodes⟩ := h.global
  have hfilter : (nodes.filter fun node => !s.isClosed node).Pairwise (· > ·) := hdec.filter _
  rw [hnodes, List.pairwise_reverse] at hfilter
  exact hfilter

theorem nodup (h : s.Represents a bound opens) : opens.Nodup :=
  h.increasing.imp fun hlt => Nat.ne_of_lt hlt

/-- Every open start is an earlier event that is not marked. -/
theorem mem_open (h : s.Represents a bound opens) {start : Nat} (hmem : start ∈ opens) :
    start < bound ∧ s.isClosed start = false := by
  obtain ⟨nodes, -, -, hlt, hnodes⟩ := h.global
  have hin : start ∈ nodes.filter fun node => !s.isClosed node := by
    rw [hnodes]
    simpa using hmem
  rw [List.mem_filter] at hin
  exact ⟨hlt start hin.1, by simpa using hin.2⟩

/-- Passing an event that opens nothing keeps the open starts. -/
theorem advance (h : s.Represents a bound opens) (hlt : bound < a.len) :
    s.Represents a (bound + 1) opens where
  bound_le := hlt
  globalPrev_size := h.globalPrev_size
  appPrev_size := h.appPrev_size
  closed_size := h.closed_size
  appHeads_size := h.appHeads_size
  fresh i hi := h.fresh i (by omega)
  global := by
    obtain ⟨nodes, hchain, hdec, hnodes, hopen⟩ := h.global
    exact ⟨nodes, hchain, hdec, fun node hmem => Nat.lt_succ_of_lt (hnodes node hmem), hopen⟩
  app slot := by
    obtain ⟨nodes, hchain, hdec, hnodes, hopen⟩ := h.app slot
    exact ⟨nodes, hchain, hdec, fun node hmem => Nat.lt_succ_of_lt (hnodes node hmem), hopen⟩

/-- Marking closed exactly the starts of `found` removes them from the open starts. -/
theorem mark (h : s.Represents a bound opens) (closed : Array Bool) (found : List Nat)
    (hsize : closed.size = a.len)
    (hclosed : ∀ i < a.len, closed.getD i false = (s.isClosed i || decide (i ∈ found)))
    (hfound : ∀ i ∈ found, i < bound) :
    ({ s with closed := closed } : SparseOpenStarts).Represents a bound
      (opens.filter fun start => start ∉ found) := by
  have hall : ∀ i, closed.getD i false = (s.isClosed i || decide (i ∈ found)) := by
    intro i
    by_cases hi : i < a.len
    · exact hclosed i hi
    · have hbound := h.bound_le
      have hold : s.isClosed i = false := h.fresh i (by omega)
      have hnot : i ∉ found := fun hmem => by
        have := hfound i hmem
        omega
      have hout : closed.getD i false = false := by
        rw [Array.getD_eq_getD_getElem?, Array.getElem?_eq_none (by omega)]
        rfl
      simp [hold, hnot, hout]
  -- closing marks cells and unlinks none, so each chain only loses the found starts
  have hfilter : ∀ nodes : List Nat, (nodes.filter fun node => !closed.getD node false) =
      (nodes.filter fun node => !s.isClosed node).filter fun start => start ∉ found := by
    intro nodes
    rw [List.filter_filter]
    apply List.filter_congr
    intro node _
    rw [hall node]
    cases s.isClosed node <;> simp
  exact {
    bound_le := h.bound_le
    globalPrev_size := h.globalPrev_size
    appPrev_size := h.appPrev_size
    closed_size := hsize
    appHeads_size := h.appHeads_size
    fresh := by
      intro i hi
      have hold := h.fresh i hi
      have hnot : i ∉ found := fun hmem => by
        have := hfound i hmem
        omega
      change closed.getD i false = false
      rw [hall i]
      simp [hold, hnot]
    global := by
      obtain ⟨nodes, hchain, hdec, hnodes, hopen⟩ := h.global
      refine ⟨nodes, hchain, hdec, hnodes, ?_⟩
      change (nodes.filter fun node => !closed.getD node false) = _
      rw [hfilter, hopen, List.filter_reverse]
    app := by
      intro slot
      obtain ⟨nodes, hchain, hdec, hnodes, hopen⟩ := h.app slot
      refine ⟨nodes, hchain, hdec, hnodes, ?_⟩
      change (nodes.filter fun node => !closed.getD node false) = _
      rw [hfilter, hopen, List.filter_reverse, List.filter_filter, List.filter_filter]
      congr 1
      apply List.filter_congr
      intro start _
      exact Bool.and_comm _ _ }

/-- Closing one open start. -/
theorem close (h : s.Represents a bound opens) {start : Nat} (hmem : start ∈ opens) :
    (s.closeStart start).Represents a bound (opens.filter fun other => other ∉ [start]) := by
  have hlt := (h.mem_open hmem).1
  have hbound := h.bound_le
  refine h.mark _ _ (by simp [h.closed_size]) ?_ (by simpa using hlt)
  intro i _
  rw [getD_set]
  by_cases hi : start = i
  · subst hi
    simp [h.closed_size]
    omega
  · have hne : i ≠ start := fun heq => hi heq.symm
    simp [hi, hne, SparseOpenStarts.isClosed]

/-- Pruning the list over all apps keeps the open starts. -/
theorem pruneGlobal (h : s.Represents a bound opens) :
    s.pruneGlobalHead.Represents a bound opens where
  bound_le := h.bound_le
  globalPrev_size := h.globalPrev_size
  appPrev_size := h.appPrev_size
  closed_size := h.closed_size
  appHeads_size := h.appHeads_size
  fresh := h.fresh
  global := by
    obtain ⟨nodes, hchain, hdec, hnodes, hopen⟩ := h.global
    have hsub : (nodes.dropWhile s.isClosed).Sublist nodes :=
      (List.dropWhile_suffix s.isClosed).sublist
    exact ⟨nodes.dropWhile s.isClosed,
      pruneHead_chain hchain (h.fuel_ge hdec hnodes), hdec.sublist hsub,
      fun node hmem => hnodes node (hsub.mem hmem), (filter_dropWhile nodes).trans hopen⟩
  app := h.app

/-- Pruning one app's list keeps the open starts. -/
theorem pruneApp (h : s.Represents a bound opens) (appCode : Int) :
    (s.pruneAppHead appCode).Represents a bound opens where
  bound_le := h.bound_le
  globalPrev_size := h.globalPrev_size
  appPrev_size := h.appPrev_size
  closed_size := h.closed_size
  appHeads_size := by
    simp [SparseOpenStarts.pruneAppHead, h.appHeads_size]
  fresh := h.fresh
  global := h.global
  app slot := by
    obtain ⟨nodes, hchain, hdec, hnodes, hopen⟩ := h.app slot
    have hhead : (s.pruneAppHead appCode).appHead slot =
        if appCode.toNat = slot ∧ appCode.toNat < s.appHeads.size then
          pruneHead s.appBefore s.isClosed s.fuel (s.appHead appCode.toNat)
        else s.appHead slot := getD_set _ _ _ _ _
    by_cases hslot : appCode.toNat = slot ∧ appCode.toNat < s.appHeads.size
    · have hsub : (nodes.dropWhile s.isClosed).Sublist nodes :=
        (List.dropWhile_suffix s.isClosed).sublist
      refine ⟨nodes.dropWhile s.isClosed, ?_, hdec.sublist hsub,
        fun node hmem => hnodes node (hsub.mem hmem), (filter_dropWhile nodes).trans hopen⟩
      rw [hhead, if_pos hslot, hslot.1]
      exact pruneHead_chain hchain (h.fuel_ge hdec hnodes)
    · refine ⟨nodes, ?_, hdec, hnodes, hopen⟩
      rw [hhead, if_neg hslot]
      exact hchain

end SparseOpenStarts.Represents

end Chronicle.Matcher
