import Chronicle.Library.Loop
import Chronicle.Matcher.StopSearch

/-!
# The ledger of open and closed starts

What every matcher of the fused rule does, whatever it stores: a stop event moves compatible open
starts to the closed ones, an opener adds an open start, and the end of the stream settles what is
still open. `Accounted` is the invariant of such a ledger over a whole run.
-/

namespace Chronicle.Matcher

open Chronicle.Library.Loop

section Ledger

variable (a : EventArrays) (options : MatchOptions) (opener : Nat → Bool)

/-- The stop at `index` closes compatible open starts, at most one when stops are not reused. -/
def ClosesSome (index : Nat) (l l' : LegacyState) : Prop :=
  ∃ closed kept, (closed ++ kept).Perm l.openStartIndices ∧
    (∀ start ∈ closed, isCompatibleOpenStartForStop a options index start = true) ∧
    (options.allowStopEventReuse = false → closed.length ≤ 1) ∧
    l' = legacyRecord a l closed kept index

/-- The closes of a ledger: each start with the event that ended it. -/
def LegacyState.closes (l : LegacyState) : List (Nat × Nat) :=
  l.stopStartIndices.zip l.stopEventIndices

/-- Every opener before event `n` is either open or closed, exactly once, and every close is
compatible and carries its own reason. -/
structure Accounted (n : Nat) (l : LegacyState) : Prop where
  starts : l.startIndices = (List.range n).filter opener
  perm : (l.stopStartIndices ++ l.openStartIndices).Perm l.startIndices
  events_length : l.stopEventIndices.length = l.stopStartIndices.length
  reasons : l.stopReasons = l.closes.map fun entry => legacyCloseReason a entry.2 entry.1
  closes_ok : ∀ entry ∈ l.closes, entry.1 < entry.2 ∧ entry.2 < n ∧
    isCompatibleOpenStartForStop a options entry.2 entry.1 = true
  single_use : options.allowStopEventReuse = false → l.stopEventIndices.Nodup

end Ledger

section Runs

variable {a : EventArrays} {options : MatchOptions} {opener : Nat → Bool} {index n : Nat}
variable {l l' : LegacyState}

namespace Accounted

/-- An empty ledger accounts for no event. -/
theorem init : Accounted a options opener 0 legacyInit where
  starts := rfl
  perm := .refl _
  events_length := rfl
  reasons := rfl
  closes_ok := by simp [legacyInit, LegacyState.closes]
  single_use := fun _ => List.nodup_nil

/-- The starts so far are distinct. -/
theorem starts_nodup (h : Accounted a options opener n l) : l.startIndices.Nodup := by
  rw [h.starts]
  exact List.nodup_range.filter _

/-- Closed and open starts are all distinct. -/
theorem nodup (h : Accounted a options opener n l) :
    (l.stopStartIndices ++ l.openStartIndices).Nodup :=
  h.perm.nodup_iff.mpr h.starts_nodup

/-- Every start is an earlier opener. -/
theorem mem_start (h : Accounted a options opener n l) {start : Nat}
    (hmem : start ∈ l.stopStartIndices ++ l.openStartIndices) :
    start < n ∧ opener start = true := by
  rw [h.perm.mem_iff, h.starts, List.mem_filter, List.mem_range] at hmem
  exact hmem

/-- Every event that closes a start is an earlier event. -/
theorem mem_event (h : Accounted a options opener n l) {event : Nat}
    (hmem : event ∈ l.stopEventIndices) : event < n := by
  obtain ⟨k, hk, rfl⟩ := List.getElem_of_mem hmem
  have hstart : k < l.stopStartIndices.length := by
    rw [← h.events_length]
    exact hk
  have hentry : (l.stopStartIndices[k], l.stopEventIndices[k]) ∈ l.closes := by
    refine List.mem_iff_getElem.mpr ⟨k, ?_, ?_⟩
    · simp only [LegacyState.closes, List.length_zip]
      omega
    · simp only [LegacyState.closes, List.getElem_zip]
  exact (h.closes_ok _ hentry).2.1

/-- Starts recorded with one event append to the closes. -/
theorem closes_append (h : Accounted a options opener n l) (closed : List Nat) (event : Nat) :
    (l.stopStartIndices ++ closed).zip (l.stopEventIndices ++ closed.map fun _ => event) =
      l.closes ++ closed.map fun start => (start, event) := by
  rw [List.zip_append h.events_length.symm, List.map_prod_left_eq_zip]
  rfl

/-- The closes list the closed starts. -/
theorem closes_fst (h : Accounted a options opener n l) :
    l.closes.map Prod.fst = l.stopStartIndices :=
  List.map_fst_zip (Nat.le_of_eq h.events_length.symm)

/-- A stop keeps the ledger balanced. -/
theorem stop (h : Accounted a options opener index l) (hstop : ClosesSome a options index l l') :
    (l'.stopStartIndices ++ l'.openStartIndices).Perm l.startIndices ∧
      l'.startIndices = l.startIndices ∧
      l'.stopEventIndices.length = l'.stopStartIndices.length ∧
      (l'.stopReasons = l'.closes.map fun entry => legacyCloseReason a entry.2 entry.1) ∧
      (∀ entry ∈ l'.closes, entry.1 < entry.2 ∧ entry.2 ≤ index ∧
        isCompatibleOpenStartForStop a options entry.2 entry.1 = true) ∧
      (options.allowStopEventReuse = false → l'.stopEventIndices.Nodup) := by
  obtain ⟨closed, kept, hperm, hcompat, hone, rfl⟩ := hstop
  have hzip : (legacyRecord a l closed kept index).closes =
      l.closes ++ closed.map fun start => (start, index) := h.closes_append closed index
  refine ⟨?_, rfl, ?_, ?_, ?_, ?_⟩
  · -- a stop moves starts from the open list to the closed one
    have hopen : (l.stopStartIndices ++ (closed ++ kept)).Perm l.startIndices :=
      (hperm.append_left _).trans h.perm
    simpa [legacyRecord] using hopen
  · simp [legacyRecord, h.events_length]
  · rw [hzip]
    simp [legacyRecord, h.reasons, Function.comp_def]
  · intro entry hentry
    rw [hzip, List.mem_append] at hentry
    rcases hentry with hentry | hentry
    · have hold := h.closes_ok entry hentry
      exact ⟨hold.1, Nat.le_of_lt hold.2.1, hold.2.2⟩
    · obtain ⟨start, hstart, rfl⟩ := List.mem_map.mp hentry
      have hopen : start ∈ l.openStartIndices :=
        hperm.mem_iff.mp (List.mem_append_left _ hstart)
      exact ⟨(h.mem_start (List.mem_append_right _ hopen)).1, Nat.le_refl _, hcompat start hstart⟩
  · intro hreuse
    have hold := h.single_use hreuse
    have hshort := hone hreuse
    simp only [legacyRecord]
    -- without reuse the stop closes at most one start, and no earlier stop had this index
    match closed, hshort with
    | [], _ => simpa using hold
    | [start], _ =>
        have hnew : index ∉ l.stopEventIndices := fun hmem =>
          Nat.lt_irrefl _ (h.mem_event hmem)
        rw [List.map_singleton, List.nodup_append]
        refine ⟨hold, List.nodup_singleton _, fun event hevent other hother heq => hnew ?_⟩
        rwa [← List.mem_singleton.mp hother, ← heq]

/-- One event: its stop, then its opening. -/
theorem step (h : Accounted a options opener index l) (hstop : ClosesSome a options index l l') :
    Accounted a options opener (index + 1) (legacyOpen opener l' index) := by
  obtain ⟨hperm, hstarts, hlength, hreasons, hcloses, hsingle⟩ := h.stop hstop
  have hcloses' : ∀ entry ∈ l'.closes, entry.1 < entry.2 ∧ entry.2 < index + 1 ∧
      isCompatibleOpenStartForStop a options entry.2 entry.1 = true := fun entry hentry =>
    ⟨(hcloses entry hentry).1, Nat.lt_succ_of_le (hcloses entry hentry).2.1,
      (hcloses entry hentry).2.2⟩
  have hrange : (List.range (index + 1)).filter opener =
      (List.range index).filter opener ++ [index].filter opener := by
    rw [List.range_succ, List.filter_append]
  unfold legacyOpen
  by_cases hopener : opener index = true
  · rw [if_pos hopener]
    exact {
      starts := by rw [hrange, hstarts, h.starts]; simp [hopener]
      perm := by
        rw [hstarts]
        simpa using hperm.append_right [index]
      events_length := hlength
      reasons := hreasons
      closes_ok := hcloses'
      single_use := hsingle }
  · rw [if_neg hopener]
    exact {
      starts := by rw [hrange, hstarts, h.starts]; simp [hopener]
      perm := by rw [hstarts]; exact hperm
      events_length := hlength
      reasons := hreasons
      closes_ok := hcloses'
      single_use := hsingle }

end Accounted

end Runs

/-! ## The end of the stream -/

section Settlement

variable (a : EventArrays) (options : MatchOptions)

/-- Close `stops` at the last event and report `missing`. -/
def settle (l : LegacyState) (stops missing : List Nat) : MatchUpdateIndices where
  startIndices := l.startIndices
  stopStartIndices := l.stopStartIndices ++ stops
  stopEventIndices := l.stopEventIndices ++ stops.map fun _ => a.len - 1
  missingIndices := missing
  stopReasons := l.stopReasons ++ stops.map fun _ => .endOfStream
  missingReasons := missing.map fun _ => .unobserved
  stopTimestampsNs := List.replicate (l.stopStartIndices ++ stops).length none

/-- The open starts that the last event closes. -/
def settledStops (l : LegacyState) : List Nat :=
  l.openStartIndices.filter (acceptsEndOfStream options a (a.len - 1))

/-- The open starts left without an end. -/
def settledMissing (l : LegacyState) : List Nat :=
  l.openStartIndices.filter fun start => !acceptsEndOfStream options a (a.len - 1) start

variable {a options} {opener : Nat → Bool} {l : LegacyState} {st : SparseState}

/-- Without events nothing is open. -/
theorem Accounted.open_nil (h : Accounted a options opener a.len l) (hlen : ¬ 0 < a.len) :
    l.openStartIndices = [] := by
  refine List.eq_nil_iff_forall_not_mem.mpr fun start hstart => ?_
  have hlt := (h.mem_start (List.mem_append_right _ hstart)).1
  omega

/-- The legacy matcher settles its open starts in order. -/
theorem legacyFinish_eq {a : OpenerArrays} (hopen : ¬ 0 < a.len → l.openStartIndices = []) :
    legacyFinish a options l =
      settle a.toEventArrays l (settledStops a.toEventArrays options l)
        (settledMissing a.toEventArrays options l) := by
  unfold legacyFinish settledStops settledMissing
  split
  · simp only [List.partition_eq_filter_filter]
    rfl
  · next hlen => simp [hopen hlen, settle]

/-- `resize` to a longer list fills up with the value. -/
theorem resize_append {α : Type} (items : List α) (len : Nat) (value : α)
    (h : items.length ≤ len) :
    resize items len value = items ++ List.replicate (len - items.length) value := by
  unfold resize
  rw [List.take_of_length_le h]

end Settlement

end Chronicle.Matcher
