import Chronicle.Library.Runs
import Chronicle.Pipeline.Culverhouse

/-!
# What the same-app collapse covers

For one sequence of rows the collapse cuts the spans into runs and keeps one span for each run: from
the start of its first row to its latest stop. Time is lost exactly where a run reaches back before
its first row.
-/

namespace Chronicle.Pipeline

open Chronicle.Library Chronicle.Library.Machine Chronicle.Library.Runs

/-- The interval of a usage row, with its duration-rule state. -/
structure Span where
  state : RuleState
  start : Int
  stop : Int
deriving DecidableEq, Repr

/-- The span of a row of the sequence. -/
def Row.usageSpan (key : SequenceKey) (row : Row) : Option Span :=
  if isCulverhouseUsageRow row ∧ row.sequenceKey = key then
    (culverhouseSpanNs row).map fun span => ⟨row.ruleState, span.1, span.2⟩
  else none

/-- The spans of one sequence. -/
def spans (key : SequenceKey) (rows : List Row) : List Span := rows.filterMap (Row.usageSpan key)

/-- The time arithmetic of the collapse stays within 64 bits. -/
def TimesFit (rows : List Row) : Prop :=
  ∀ key, ∀ a ∈ spans key rows, ∀ b ∈ spans key rows,
    Fits64 (a.start - b.stop) ∧ Fits64 (b.stop - a.start) ∧ Fits64 a.stop

/-- A run of one state: each row starts at most a second after the latest stop before it. -/
def sameAppRuns : Grouping Span Span where
  first := id
  extend kept span := { kept with stop := max span.stop kept.stop }
  joins kept span :=
    kept.state = span.state && decide (span.start - kept.stop ≤ culverhouseSameAppCollapseNs)

section

variable {key : SequenceKey} {row target : Row} {e : Span} {rows : List Row}

theorem usageSpan_eq_some : row.usageSpan key = some e ↔
    isCulverhouseUsageRow row = true ∧ row.sequenceKey = key ∧
      culverhouseSpanNs row = some (e.start, e.stop) ∧ row.ruleState = e.state := by
  unfold Row.usageSpan
  split
  · rename_i hrow
    rw [Option.map_eq_some_iff]
    constructor
    · rintro ⟨span, hspan, rfl⟩
      exact ⟨hrow.1, hrow.2, hspan, rfl⟩
    · rintro ⟨-, -, hspan, hstate⟩
      exact ⟨_, hspan, by rw [hstate]⟩
  · rename_i hrow
    constructor
    · exact (nomatch ·)
    · rintro ⟨husage, hkey, -, -⟩
      exact absurd ⟨husage, hkey⟩ hrow

theorem start_le_stop (h : row.usageSpan key = some e) : e.start ≤ e.stop := by
  obtain ⟨-, -, hspan, -⟩ := usageSpan_eq_some.mp h
  unfold culverhouseSpanNs at hspan
  split at hspan
  · split at hspan
    · rename_i hle
      obtain ⟨rfl, rfl⟩ := Prod.mk.inj (Option.some.inj hspan)
      exact hle
    · cases hspan
  · cases hspan

theorem start_le_stop_of_mem (h : e ∈ spans key rows) : e.start ≤ e.stop := by
  obtain ⟨row, -, hrow⟩ := List.mem_filterMap.mp h
  exact start_le_stop hrow

/-- The survivor of a merge. -/
def mergedRow (target : Row) (start span : Int) : Row :=
  pushRowFlag (culverhouseMergeRow target start span) culverhouseCollapsedFlag

@[simp]
theorem isCulverhouseUsageRow_mergedRow (start span : Int) :
    isCulverhouseUsageRow (mergedRow target start span) = isCulverhouseUsageRow target := by
  unfold mergedRow culverhouseMergeRow culverhouseTruncateRow
  dsimp only
  split <;> rfl

@[simp]
theorem sequenceKey_mergedRow (start span : Int) :
    (mergedRow target start span).sequenceKey = target.sequenceKey := by
  unfold mergedRow culverhouseMergeRow culverhouseTruncateRow
  dsimp only
  split <;> rfl

@[simp]
theorem ruleState_mergedRow (start span : Int) :
    (mergedRow target start span).ruleState = target.ruleState := by
  unfold mergedRow culverhouseMergeRow culverhouseTruncateRow
  dsimp only
  split <;> rfl

@[simp]
theorem startTimestampNs_mergedRow (start span : Int) :
    (mergedRow target start span).startTimestampNs = target.startTimestampNs := by
  unfold mergedRow culverhouseMergeRow culverhouseTruncateRow
  dsimp only
  split <;> rfl

@[simp]
theorem stopTimestampNs_mergedRow (start span : Int) :
    (mergedRow target start span).stopTimestampNs = some (wrap64 (start + span)) := by
  unfold mergedRow culverhouseMergeRow culverhouseTruncateRow
  dsimp only
  split <;> rfl

/-- A merge moves the stop of the survivor and nothing else of its span. -/
theorem usageSpan_mergedRow (h : target.usageSpan key = some e) {stop : Int} (hfits : Fits64 stop)
    (hle : e.start ≤ stop) :
    (mergedRow target e.start (stop - e.start)).usageSpan key =
      some { e with stop := stop } := by
  obtain ⟨husage, hkey, hspan, hstate⟩ := usageSpan_eq_some.mp h
  refine usageSpan_eq_some.mpr ⟨by simpa using husage, by simpa using hkey, ?_, by simpa using hstate⟩
  have hstart : target.startTimestampNs = some e.start := by
    unfold culverhouseSpanNs at hspan
    split at hspan
    · rename_i hstart hstop
      split at hspan
      · rw [hstart, (Prod.mk.inj (Option.some.inj hspan)).1]
      · cases hspan
    · cases hspan
  have hstop : wrap64 (e.start + (stop - e.start)) = stop := by
    rw [add_sub_cancel]
    exact wrap64_of_fits hfits
  unfold culverhouseSpanNs
  rw [startTimestampNs_mergedRow, stopTimestampNs_mergedRow, hstart, hstop]
  exact if_pos hle

theorem usageSpan_of_sequenceKey_ne (h : row.sequenceKey ≠ key) : row.usageSpan key = none :=
  if_neg fun hrow => h hrow.2

theorem modify_append_cons {α : Type*} (before : List α) (x : α) (after : List α) (f : α → α) :
    (before ++ x :: after).modify before.length f = before ++ f x :: after := by
  induction before with
  | nil => rfl
  | cons y before ih => exact congrArg (y :: ·) ih

end

/-! ## The collapse, sequence by sequence -/

section Refinement

variable {rows : List Row} {c : Collapse} {row : Row} {key : SequenceKey} {e : Span}

/-- What is kept for a sequence is one span for each run of it, and the collapse remembers where the
last of them stands. -/
structure Collapses (rows : List Row) (c : Collapse) : Prop where
  spans_eq : ∀ key, spans key c.out =
    (sameAppRuns.runs (spans key rows)).filterMap sameAppRuns.envelope
  last_none : ∀ key, c.lastUsage key = none → spans key c.out = []
  last_some : ∀ key position state, c.lastUsage key = some (position, state) →
    ∃ target e, c.out[position]? = some target ∧ target.usageSpan key = some e ∧
      e.state = state ∧ ∀ i later, position < i → c.out[i]? = some later →
        later.usageSpan key = none

theorem spans_append (key : SequenceKey) (first second : List Row) :
    spans key (first ++ second) = spans key first ++ spans key second :=
  List.filterMap_append

theorem spans_cons_none (h : row.usageSpan key = none) (rows : List Row) :
    spans key (row :: rows) = spans key rows := List.filterMap_cons_none h

theorem spans_cons_some (h : row.usageSpan key = some e) (rows : List Row) :
    spans key (row :: rows) = e :: spans key rows := List.filterMap_cons_some h

theorem spans_append_singleton_none (h : row.usageSpan key = none) (rows : List Row) :
    spans key (rows ++ [row]) = spans key rows := by
  rw [spans_append, spans_cons_none h]
  exact List.append_nil _

theorem spans_append_singleton_some (h : row.usageSpan key = some e) (rows : List Row) :
    spans key (rows ++ [row]) = spans key rows ++ [e] := by
  rw [spans_append, spans_cons_some h]
  rfl

theorem spans_eq_nil (h : ∀ row ∈ rows, row.usageSpan key = none) : spans key rows = [] :=
  List.filterMap_eq_nil_iff.mpr h

/-- The last kept span of a sequence stands in a known place. -/
theorem exists_split {position : Nat} {target : Row} (hat : c.out[position]? = some target)
    (hafter : ∀ i later, position < i → c.out[i]? = some later → later.usageSpan key = none) :
    ∃ before after, c.out = before ++ target :: after ∧ before.length = position ∧
      spans key after = [] := by
  obtain ⟨hlt, hget⟩ := List.getElem?_eq_some_iff.mp hat
  refine ⟨c.out.take position, c.out.drop (position + 1), ?_, by simp [hlt.le], ?_⟩
  · rw [← hget, List.getElem_cons_drop, List.take_append_drop]
  · refine spans_eq_nil fun later hlater => ?_
    obtain ⟨i, hi⟩ := List.mem_iff_getElem?.mp hlater
    rw [List.getElem?_drop] at hi
    exact hafter (position + 1 + i) later (by omega) hi

/-- A row without a span is only kept. -/
theorem Collapses.push_none (h : Collapses rows c) (hrow : ∀ key, row.usageSpan key = none) :
    Collapses (rows ++ [row]) { c with out := c.out ++ [row] } where
  spans_eq key := by
    rw [spans_append_singleton_none (hrow key), spans_append_singleton_none (hrow key)]
    exact h.spans_eq key
  last_none key hnone := by
    rw [spans_append_singleton_none (hrow key)]
    exact h.last_none key hnone
  last_some key position state hsome := by
    obtain ⟨target, e, hat, hspan, hstate, hafter⟩ := h.last_some key position state hsome
    refine ⟨target, e, ?_, hspan, hstate, fun i later hi hlater => ?_⟩
    · exact List.getElem?_append_left (List.getElem?_eq_some_iff.mp hat).1 ▸ hat
    · rw [List.getElem?_append] at hlater
      split at hlater
      · exact hafter i later hi hlater
      · rw [List.mem_singleton.mp (List.mem_of_getElem? hlater)]
        exact hrow key

/-- A span that its last run does not admit begins a run. -/
theorem Collapses.push_some (h : Collapses rows c) (hrow : row.usageSpan row.sequenceKey = some e)
    (hstate : e.state = row.ruleState)
    (hadd : sameAppRuns.add (sameAppRuns.runs (spans row.sequenceKey rows)) e =
      sameAppRuns.runs (spans row.sequenceKey rows) ++ [[e]]) :
    Collapses (rows ++ [row])
      { out := c.out ++ [row]
        lastUsage := Function.update c.lastUsage row.sequenceKey
          (some (c.out.length, row.ruleState)) } where
  spans_eq key := by
    by_cases hkey : row.sequenceKey = key
    · subst hkey
      rw [spans_append_singleton_some hrow, spans_append_singleton_some hrow,
        Grouping.runs_append_singleton, hadd, List.filterMap_append, ← h.spans_eq]
      rfl
    · have hnone := usageSpan_of_sequenceKey_ne hkey
      rw [spans_append_singleton_none hnone, spans_append_singleton_none hnone]
      exact h.spans_eq key
  last_none key hnone := by
    dsimp only at hnone
    by_cases hkey : row.sequenceKey = key
    · subst hkey
      rw [Function.update_self] at hnone
      cases hnone
    · rw [Function.update_of_ne (Ne.symm hkey)] at hnone
      rw [spans_append_singleton_none (usageSpan_of_sequenceKey_ne hkey)]
      exact h.last_none key hnone
  last_some key position state hsome := by
    dsimp only at hsome
    by_cases hkey : row.sequenceKey = key
    · subst hkey
      rw [Function.update_self, Option.some.injEq, Prod.mk.injEq] at hsome
      obtain ⟨rfl, rfl⟩ := hsome
      -- the new row is the last of its key
      refine ⟨row, e, List.getElem?_concat_length, hrow, hstate, fun i later hi hlater => ?_⟩
      rw [List.getElem?_eq_none (by simp; omega)] at hlater
      cases hlater
    · rw [Function.update_of_ne (Ne.symm hkey)] at hsome
      obtain ⟨target, e, hat, hspan, hstate, hafter⟩ := h.last_some key position state hsome
      refine ⟨target, e, ?_, hspan, hstate, fun i later hi hlater => ?_⟩
      · exact List.getElem?_append_left (List.getElem?_eq_some_iff.mp hat).1 ▸ hat
      · rw [List.getElem?_append] at hlater
        split at hlater
        · exact hafter i later hi hlater
        · rw [List.mem_singleton.mp (List.mem_of_getElem? hlater)]
          exact usageSpan_of_sequenceKey_ne hkey

/-- A span that its last run admits moves the stop of what is kept for the run. -/
theorem Collapses.merge (h : Collapses rows c) {x : Span}
    (hrow : row.usageSpan row.sequenceKey = some x) {position : Nat} {target : Row}
    (hat : c.out[position]? = some target) (htarget : target.usageSpan row.sequenceKey = some e)
    (hafter : ∀ i later, position < i → c.out[i]? = some later →
      later.usageSpan row.sequenceKey = none)
    (hjoins : sameAppRuns.joins e x = true) (hfits : Fits64 (max x.stop e.stop)) :
    Collapses (rows ++ [row])
      { c with
        out := c.out.modify position fun target =>
          mergedRow target e.start (max x.stop e.stop - e.start) } := by
  have hle : e.start ≤ max x.stop e.stop := (start_le_stop htarget).trans (le_max_right _ _)
  have hmerged := usageSpan_mergedRow htarget hfits hle
  have hkeyTarget : target.sequenceKey = row.sequenceKey := (usageSpan_eq_some.mp htarget).2.1
  have hother : ∀ {key}, row.sequenceKey ≠ key → row.usageSpan key = none ∧
      target.usageSpan key = none ∧
      (mergedRow target e.start (max x.stop e.stop - e.start)).usageSpan key = none := by
    intro key hkey
    refine ⟨usageSpan_of_sequenceKey_ne hkey, usageSpan_of_sequenceKey_ne (hkeyTarget ▸ hkey),
      usageSpan_of_sequenceKey_ne ?_⟩
    rw [sequenceKey_mergedRow, hkeyTarget]
    exact hkey
  obtain ⟨before, after, hout, hlength, hnone⟩ := exists_split hat hafter
  have hmodify : (c.out.modify position fun target =>
      mergedRow target e.start (max x.stop e.stop - e.start)) =
      before ++ mergedRow target e.start (max x.stop e.stop - e.start) :: after := by
    rw [hout, ← hlength]
    exact modify_append_cons before target after _
  -- the last run is the one whose envelope the target shows
  have hruns := h.spans_eq row.sequenceKey
  rw [hout, spans_append, spans_cons_some htarget, hnone] at hruns
  constructor
  · intro key
    rw [hmodify, spans_append]
    by_cases hkey : row.sequenceKey = key
    · subst hkey
      rw [spans_cons_some hmerged, hnone, spans_append_singleton_some hrow,
        Grouping.runs_append_singleton]
      rcases List.eq_nil_or_concat (sameAppRuns.runs (spans row.sequenceKey rows)) with
        hnil | ⟨runs, run, hlast⟩
      · rw [hnil] at hruns
        simp at hruns
      · rw [List.concat_eq_append] at hlast
        rw [hlast, List.filterMap_append] at hruns
        have hmem : run ∈ sameAppRuns.runs (spans row.sequenceKey rows) := by simp [hlast]
        obtain ⟨kept, hkept⟩ := Grouping.exists_envelope (Grouping.ne_nil_of_mem_runs hmem)
        rw [List.filterMap_cons_some hkept, List.filterMap_nil] at hruns
        obtain ⟨hbefore, hkeptEq⟩ := List.append_inj' hruns rfl
        obtain rfl := List.singleton_inj.mp hkeptEq
        rw [hlast, Grouping.add_append_singleton, if_pos (by simp [hkept, hjoins]),
          List.filterMap_append, ← hbefore,
          List.filterMap_cons_some (Grouping.envelope_append_singleton hkept x)]
        rfl
    · obtain ⟨hrowNone, htargetNone, hmergedNone⟩ := hother hkey
      have hsame := h.spans_eq key
      rw [hout, spans_append, spans_cons_none htargetNone] at hsame
      rw [spans_cons_none hmergedNone, spans_append_singleton_none hrowNone]
      exact hsame
  · intro key hlastNone
    have hnil := h.last_none key hlastNone
    by_cases hkey : row.sequenceKey = key
    · subst hkey
      rw [hout, spans_append, spans_cons_some htarget] at hnil
      simp at hnil
    · obtain ⟨-, htargetNone, hmergedNone⟩ := hother hkey
      rw [hout, spans_append, spans_cons_none htargetNone] at hnil
      rw [hmodify, spans_append, spans_cons_none hmergedNone]
      exact hnil
  · intro key position' state hsome
    obtain ⟨target', e', hat', hspan', hstate', hafter'⟩ := h.last_some key position' state hsome
    by_cases hkey : row.sequenceKey = key
    · subst hkey
      -- both places hold the last span of the sequence
      obtain rfl : position = position' := by
        rcases lt_trichotomy position position' with hlt | heq | hlt
        · rw [hafter position' target' hlt hat'] at hspan'
          cases hspan'
        · exact heq
        · rw [hafter' position target hlt hat] at htarget
          cases htarget
      obtain rfl : target = target' := Option.some.inj (hat.symm.trans hat')
      obtain rfl : e = e' := Option.some.inj (htarget.symm.trans hspan')
      refine ⟨_, _, ?_, hmerged, hstate', fun i later hi hlater => ?_⟩
      · rw [List.getElem?_modify_eq, hat]
        rfl
      · rw [List.getElem?_modify_ne _ _ (Nat.ne_of_lt hi)] at hlater
        exact hafter i later hi hlater
    · obtain ⟨-, htargetNone, hmergedNone⟩ := hother hkey
      have hne : position ≠ position' := by
        rintro rfl
        obtain rfl : target = target' := Option.some.inj (hat.symm.trans hat')
        rw [htargetNone] at hspan'
        cases hspan'
      refine ⟨target', e', ?_, hspan', hstate', fun i later hi hlater => ?_⟩
      · rw [List.getElem?_modify_ne _ _ hne]
        exact hat'
      · rcases eq_or_ne position i with rfl | hi'
        · rw [List.getElem?_modify_eq, hat] at hlater
          obtain rfl := Option.some.inj hlater
          exact hmergedNone
        · rw [List.getElem?_modify_ne _ _ hi'] at hlater
          exact hafter' i later hi hlater

theorem mem_of_mem_run {l run : List Span} (hrun : run ∈ sameAppRuns.runs l) {y : Span}
    (hy : y ∈ run) : y ∈ l := by
  have hmem : y ∈ (sameAppRuns.runs l).flatten := List.mem_flatten.mpr ⟨run, hrun, hy⟩
  rwa [Grouping.flatten_runs] at hmem

/-- The envelope of a run starts with its first span and stops with its latest. -/
theorem envelope_eq_some {run : List Span} (h : sameAppRuns.envelope run = some e) :
    (∃ first ∈ run.head?, e.start = first.start ∧ e.state = first.state) ∧
      (∃ last ∈ run, e.stop = last.stop) ∧ ∀ y ∈ run, y.stop ≤ e.stop := by
  induction run using List.reverseRecOn generalizing e with
  | nil => cases h
  | append_singleton run x ih =>
      rcases eq_or_ne run [] with rfl | hne
      · obtain rfl : x = e := Option.some.inj h
        exact ⟨⟨x, rfl, rfl, rfl⟩, ⟨x, by simp, rfl⟩, fun y hy => by
          rw [List.mem_singleton.mp hy]⟩
      · obtain ⟨kept, hkept⟩ := sameAppRuns.exists_envelope hne
        rw [Grouping.envelope_append_singleton hkept] at h
        obtain rfl : sameAppRuns.extend kept x = e := Option.some.inj h
        obtain ⟨⟨first, hfirst, hstart, hstate⟩, ⟨last, hlast, hstop⟩, hle⟩ := ih hkept
        refine ⟨⟨first, List.head?_append_of_ne_nil run hne ▸ hfirst, hstart, hstate⟩, ?_,
          fun y hy => ?_⟩
        · rcases le_total x.stop kept.stop with hmax | hmax
          · exact ⟨last, List.mem_append_left _ hlast, (max_eq_right hmax).trans hstop⟩
          · exact ⟨x, by simp, max_eq_left hmax⟩
        · rcases List.mem_append.mp hy with hy | hy
          · exact (hle y hy).trans (le_max_right _ _)
          · rw [List.mem_singleton.mp hy]
            exact le_max_left _ _

theorem runs_eq_nil {l : List Span}
    (h : (sameAppRuns.runs l).filterMap sameAppRuns.envelope = []) : sameAppRuns.runs l = [] := by
  refine List.eq_nil_iff_forall_not_mem.mpr fun run hrun => ?_
  obtain ⟨kept, hkept⟩ := Grouping.exists_envelope (Grouping.ne_nil_of_mem_runs hrun)
  rw [List.filterMap_eq_nil_iff.mp h run hrun] at hkept
  cases hkept

/-- The last kept span of a sequence is the envelope of its last run. -/
theorem exists_last_run (h : Collapses rows c) {position : Nat} {target : Row}
    (hat : c.out[position]? = some target) (htarget : target.usageSpan key = some e)
    (hafter : ∀ i later, position < i → c.out[i]? = some later → later.usageSpan key = none) :
    ∃ runs run, sameAppRuns.runs (spans key rows) = runs ++ [run] ∧
      sameAppRuns.envelope run = some e := by
  obtain ⟨before, after, hout, -, hnone⟩ := exists_split hat hafter
  have hruns := h.spans_eq key
  rw [hout, spans_append, spans_cons_some htarget, hnone] at hruns
  rcases List.eq_nil_or_concat (sameAppRuns.runs (spans key rows)) with hnil | ⟨runs, run, hlast⟩
  · rw [hnil] at hruns
    simp at hruns
  · rw [List.concat_eq_append] at hlast
    have hmem : run ∈ sameAppRuns.runs (spans key rows) := by simp [hlast]
    obtain ⟨kept, hkept⟩ := Grouping.exists_envelope (Grouping.ne_nil_of_mem_runs hmem)
    rw [hlast, List.filterMap_append, List.filterMap_cons_some hkept, List.filterMap_nil] at hruns
    obtain rfl := List.singleton_inj.mp (List.append_inj' hruns rfl).2
    exact ⟨runs, run, hlast, hkept⟩

/-- One row of the collapse. -/
theorem Collapses.step (h : Collapses rows c) (hfits : TimesFit (rows ++ [row])) :
    Collapses (rows ++ [row]) (collapseStep c row) := by
  unfold collapseStep
  by_cases husage : isCulverhouseUsageRow row = true
  -- a row of another kind has no span and is passed through
  case neg =>
    rw [if_pos (by simpa using husage)]
    exact h.push_none fun key => if_neg fun hrow => husage hrow.1
  case pos =>
    rw [if_neg (by simp [husage])]
    cases hspan : culverhouseSpanNs row with
    | none =>
        have hnone : mergeTarget c row = none := by
          unfold mergeTarget
          rw [hspan]
          cases c.lastUsage row.sequenceKey <;> rfl
        rw [hnone]
        refine h.push_none fun key => ?_
        unfold Row.usageSpan
        rw [hspan]
        exact ite_self _
    | some span =>
        have hrow : row.usageSpan row.sequenceKey = some ⟨row.ruleState, span.1, span.2⟩ :=
          usageSpan_eq_some.mpr ⟨husage, rfl, hspan, rfl⟩
        have hmemRow : (⟨row.ruleState, span.1, span.2⟩ : Span) ∈
            spans row.sequenceKey (rows ++ [row]) := by
          rw [spans_append_singleton_some hrow]
          exact List.mem_append_right _ List.mem_cons_self
        have hmemRows : ∀ y ∈ spans row.sequenceKey rows,
            y ∈ spans row.sequenceKey (rows ++ [row]) := fun y hy => by
          rw [spans_append_singleton_some hrow]
          exact List.mem_append_left _ hy
        cases hlast : c.lastUsage row.sequenceKey with
        | none =>
            -- the first span of its key opens a run
            have hnone : mergeTarget c row = none := by
              unfold mergeTarget
              rw [hlast]
              rfl
            have hempty := runs_eq_nil ((h.spans_eq row.sequenceKey).symm.trans
              (h.last_none row.sequenceKey hlast))
            rw [hnone]
            exact h.push_some hrow rfl (by rw [hempty]; rfl)
        | some previous =>
            obtain ⟨position, state⟩ := previous
            -- the last row of the key spans its last run, so joining it is joining the run
            obtain ⟨target, e, hat, htarget, hstate, hafter⟩ :=
              h.last_some row.sequenceKey position state hlast
            obtain ⟨runs, run, hruns, henvelope⟩ := exists_last_run h hat htarget hafter
            have hrun : run ∈ sameAppRuns.runs (spans row.sequenceKey rows) := by simp [hruns]
            obtain ⟨⟨first, hfirst, hstart, -⟩, ⟨last, hlastMem, hstop⟩, -⟩ :=
              envelope_eq_some henvelope
            have hfirstMem := hmemRows _ (mem_of_mem_run hrun (List.mem_of_mem_head? hfirst))
            have hlastMem := hmemRows _ (mem_of_mem_run hrun hlastMem)
            obtain ⟨hgapFits, -, -⟩ := hfits _ _ hmemRow _ hlastMem
            rw [← hstop] at hgapFits
            -- the ends of the envelope are ends of rows, so the differences do not wrap
            have hmaxFits : Fits64 (max span.2 e.stop) ∧ Fits64 (max span.2 e.stop - e.start) := by
              rcases le_total span.2 e.stop with hmax | hmax
              · rw [max_eq_right hmax, hstop, hstart]
                exact ⟨(hfits _ _ hlastMem _ hlastMem).2.2, (hfits _ _ hfirstMem _ hlastMem).2.1⟩
              · rw [max_eq_left hmax, hstart]
                exact ⟨(hfits _ _ hmemRow _ hmemRow).2.2, (hfits _ _ hfirstMem _ hmemRow).2.1⟩
            have htargetSpan := (usageSpan_eq_some.mp htarget).2.2.1
            have hmerge : mergeTarget c row =
                if sameAppRuns.joins e ⟨row.ruleState, span.1, span.2⟩ = true then
                  some (position, e.start, max span.2 e.stop - e.start) else none := by
              unfold mergeTarget
              rw [hlast, hspan]
              simp only [Option.bind_eq_bind, Option.bind_some, hat, htargetSpan,
                wrap64_of_fits hgapFits, wrap64_of_fits hmaxFits.2, sameAppRuns,
                Bool.and_eq_true, decide_eq_true_eq, hstate]
            by_cases hjoins : sameAppRuns.joins e ⟨row.ruleState, span.1, span.2⟩ = true
            · rw [hmerge, if_pos hjoins]
              exact h.merge hrow hat htarget hafter hjoins hmaxFits.1
            · rw [hmerge, if_neg hjoins]
              refine h.push_some hrow rfl ?_
              rw [hruns, Grouping.add_append_singleton, if_neg]
              simpa [henvelope] using hjoins

/-- What the collapse keeps for a sequence: one span for each run. -/
theorem spans_culverhouseCollapseSameApp (hfits : TimesFit rows) (key : SequenceKey) :
    spans key (culverhouseCollapseSameApp rows) =
      (sameAppRuns.runs (spans key rows)).filterMap sameAppRuns.envelope := by
  suffices h : Collapses rows (rows.foldl collapseStep ⟨[], fun _ => none⟩) from h.spans_eq key
  induction rows using List.reverseRecOn with
  | nil => exact ⟨fun _ => rfl, fun _ _ => rfl, fun _ _ _ h => nomatch h⟩
  | append_singleton rows row ih =>
      rw [List.foldl_append]
      have hfitsRows : TimesFit rows := fun key a ha b hb => by
        have hsub : ∀ y ∈ spans key rows, y ∈ spans key (rows ++ [row]) := fun y hy => by
          rw [spans_append]
          exact List.mem_append_left _ hy
        exact hfits key a (hsub a ha) b (hsub b hb)
      exact (ih hfitsRows).step hfits

end Refinement

/-! ## Covered time -/

section Coverage

variable {key : SequenceKey} {state : RuleState} {rows : List Row} {t : Int}

/-- Some row of the sequence in this state covers the instant. -/
def Covered (key : SequenceKey) (state : RuleState) (rows : List Row) (t : Int) : Prop :=
  ∃ x ∈ spans key rows, x.state = state ∧ x.start ≤ t ∧ t < x.stop

/-- No covered time is lost, and time is gained only in gaps of at most a second between rows that
were merged. -/
structure KeepsTime (key : SequenceKey) (state : RuleState) (rows out : List Row) : Prop where
  keeps : ∀ t, Covered key state rows t → Covered key state out t
  gains : ∀ t, Covered key state out t → ¬ Covered key state rows t →
    ∃ x ∈ spans key rows, ∃ y ∈ spans key rows, x.state = state ∧ y.state = state ∧
      x.stop ≤ t ∧ t < y.start ∧ y.start - x.stop ≤ 1000000000 ∧
      ∃ kept ∈ spans key out, kept.state = state ∧ kept.start ≤ x.stop ∧ y.stop ≤ kept.stop

/-- A run of the sequence in this state reaches over the instant from its first row. -/
def RunReaches (key : SequenceKey) (state : RuleState) (rows : List Row) (t : Int) : Prop :=
  ∃ run ∈ sameAppRuns.runs (spans key rows), ∃ first ∈ run.head?, first.state = state ∧
    first.start ≤ t ∧ ∃ y ∈ run, t < y.stop

/-- A run covers no time before its first row that no other run of the sequence reaches over. -/
def RunsForward (key : SequenceKey) (state : RuleState) (rows : List Row) : Prop :=
  ∀ run ∈ sameAppRuns.runs (spans key rows), ∀ first ∈ run.head?, first.state = state →
    ∀ x ∈ run, ∀ t, x.start ≤ t → t < x.stop → t < first.start → RunReaches key state rows t

/-- A run has one state. -/
theorem state_eq_of_mem_run {l run : List Span} (hrun : run ∈ sameAppRuns.runs l) {first x : Span}
    (hfirst : first ∈ run.head?) (hx : x ∈ run) : x.state = first.state := by
  obtain ⟨before, after, hsplit⟩ := List.append_of_mem hx
  rcases eq_or_ne before [] with rfl | hne
  · rw [hsplit] at hfirst
    rw [Option.some.inj hfirst]
  · obtain ⟨e, he, hjoins⟩ := Grouping.joins_of_mem_runs hrun hsplit hne
    obtain ⟨⟨first', hfirst', -, hstate⟩, -⟩ := envelope_eq_some he
    rw [hsplit, List.head?_append_of_ne_nil before hne] at hfirst
    obtain rfl := Option.some.inj (hfirst.symm.trans hfirst')
    simp only [sameAppRuns, Bool.and_eq_true, decide_eq_true_eq] at hjoins
    rw [← hjoins.1, hstate]

/-- What is kept covers what the runs reach over. -/
theorem covered_collapse_iff (hfits : TimesFit rows) :
    Covered key state (culverhouseCollapseSameApp rows) t ↔ RunReaches key state rows t := by
  rw [Covered, spans_culverhouseCollapseSameApp hfits]
  constructor
  · rintro ⟨kept, hkept, rfl, hstart, hstop⟩
    obtain ⟨run, hrun, henvelope⟩ := List.mem_filterMap.mp hkept
    obtain ⟨⟨first, hfirst, hfirstStart, hstate⟩, ⟨last, hlast, hlastStop⟩, -⟩ :=
      envelope_eq_some henvelope
    exact ⟨run, hrun, first, hfirst, hstate.symm, hfirstStart ▸ hstart, last, hlast,
      hlastStop ▸ hstop⟩
  · rintro ⟨run, hrun, first, hfirst, rfl, hstart, y, hy, hstop⟩
    obtain ⟨kept, henvelope⟩ := Grouping.exists_envelope (Grouping.ne_nil_of_mem_runs hrun)
    obtain ⟨⟨first', hfirst', hfirstStart, hstate⟩, -, hle⟩ := envelope_eq_some henvelope
    obtain rfl := Option.some.inj (hfirst.symm.trans hfirst')
    exact ⟨kept, List.mem_filterMap.mpr ⟨run, hrun, henvelope⟩, hstate, hfirstStart ▸ hstart,
      hstop.trans_le (hle y hy)⟩

/-- An instant that a run reaches over without a row of it lies in a gap that was merged. -/
theorem exists_gap (hfits : TimesFit rows) (hreaches : RunReaches key state rows t)
    (hnot : ¬ Covered key state rows t) :
    ∃ x ∈ spans key rows, ∃ y ∈ spans key rows, x.state = state ∧ y.state = state ∧
      x.stop ≤ t ∧ t < y.start ∧ y.start - x.stop ≤ 1000000000 ∧
      ∃ kept ∈ spans key (culverhouseCollapseSameApp rows), kept.state = state ∧
        kept.start ≤ x.stop ∧ y.stop ≤ kept.stop := by
  obtain ⟨run, hrun, first, hfirst, rfl, hstart, hlater⟩ := hreaches
  have hmem : ∀ z ∈ run, z ∈ spans key rows := fun z hz => mem_of_mem_run hrun hz
  have hstates : ∀ z ∈ run, z.state = first.state :=
    fun z hz => state_eq_of_mem_run hrun hfirst hz
  -- the first row of the run that lasts past the instant
  obtain ⟨y, hy⟩ : ∃ y, run.find? (fun z => decide (t < z.stop)) = some y := by
    obtain ⟨z, hz, hlt⟩ := hlater
    exact Option.isSome_iff_exists.mp (List.find?_isSome.mpr ⟨z, hz, decide_eq_true hlt⟩)
  obtain ⟨hyStop, before, after, hsplit, hbefore⟩ := List.find?_eq_some_iff_append.mp hy
  have hyStop := of_decide_eq_true hyStop
  have hyMem : y ∈ run := by simp [hsplit]
  have hyStart : t < y.start := by
    by_contra hle
    exact hnot ⟨y, hmem y hyMem, hstates y hyMem, not_lt.mp hle, hyStop⟩
  have hne : before ≠ [] := by
    rintro rfl
    rw [hsplit] at hfirst
    obtain rfl := Option.some.inj hfirst
    exact absurd hstart (not_le.mpr hyStart)
  obtain ⟨e, he, hjoins⟩ := Grouping.joins_of_mem_runs hrun hsplit hne
  obtain ⟨-, ⟨x, hx, hxStop⟩, hmax⟩ := envelope_eq_some he
  simp only [sameAppRuns, Bool.and_eq_true, decide_eq_true_eq] at hjoins
  have hxRun : x ∈ run := by rw [hsplit]; exact List.mem_append_left _ hx
  have hxBound : x.stop ≤ t := by simpa using hbefore x hx
  refine ⟨x, hmem x hxRun, y, hmem y hyMem, hstates x hxRun, hstates y hyMem, hxBound, hyStart,
    hxStop ▸ hjoins.2, ?_⟩
  obtain ⟨kept, henvelope⟩ := Grouping.exists_envelope (Grouping.ne_nil_of_mem_runs hrun)
  obtain ⟨⟨first', hfirst', hkeptStart, hkeptState⟩, -, hle⟩ := envelope_eq_some henvelope
  obtain rfl := Option.some.inj (hfirst.symm.trans hfirst')
  rw [spans_culverhouseCollapseSameApp hfits]
  refine ⟨kept, List.mem_filterMap.mpr ⟨run, hrun, henvelope⟩, hkeptState, ?_, hle y hyMem⟩
  have hfirstBefore : first ∈ before := by
    rw [hsplit, List.head?_append_of_ne_nil before hne] at hfirst
    exact List.mem_of_mem_head? hfirst
  calc kept.start = first.start := hkeptStart
    _ ≤ first.stop := start_le_stop_of_mem (hmem first (List.mem_of_mem_head? hfirst))
    _ ≤ e.stop := hmax first hfirstBefore
    _ = x.stop := hxStop

/-- The collapse keeps the time of a sequence exactly when no run of it reaches back before its first
row, but for time that another run reaches over. -/
theorem keepsTime_iff_runsForward (hfits : TimesFit rows) (key : SequenceKey) (state : RuleState) :
    KeepsTime key state rows (culverhouseCollapseSameApp rows) ↔ RunsForward key state rows := by
  constructor
  · intro hkeeps run hrun first hfirst hstate x hx t hstart hstop _
    refine (covered_collapse_iff hfits).mp (hkeeps.keeps t ?_)
    exact ⟨x, mem_of_mem_run hrun hx, (state_eq_of_mem_run hrun hfirst hx).trans hstate, hstart,
      hstop⟩
  · intro hforward
    refine ⟨fun t hcovered => (covered_collapse_iff hfits).mpr ?_, fun t hcovered hnot =>
      exists_gap hfits ((covered_collapse_iff hfits).mp hcovered) hnot⟩
    obtain ⟨x, hx, rfl, hstart, hstop⟩ := hcovered
    rw [← sameAppRuns.flatten_runs (spans key rows)] at hx
    obtain ⟨run, hrun, hx⟩ := List.mem_flatten.mp hx
    obtain ⟨first, rest, hcons⟩ :=
      List.exists_cons_of_ne_nil (Grouping.ne_nil_of_mem_runs hrun)
    have hfirst : first ∈ run.head? := by rw [hcons]; rfl
    have hstate := state_eq_of_mem_run hrun hfirst hx
    rcases le_or_gt first.start t with hle | hlt
    · exact ⟨run, hrun, first, hfirst, hstate.symm, hle, x, hx, hstop⟩
    · exact hforward run hrun first hfirst hstate.symm x hx t hstart hstop hlt

end Coverage

/-- Two rows of one app, the later one first in the table. -/
def backwardRows : List Row := [appUsageRow 10000000000 20000000000, appUsageRow 0 5000000000]

/-- Timestamps up to `2 ^ 62` leave room for the arithmetic. -/
theorem timesFit_of_bounds {rows : List Row} (h : ∀ row ∈ rows, ∀ span ∈ culverhouseSpanNs row,
    -4611686018427387904 < span.1 ∧ span.1 < 4611686018427387904 ∧
      -4611686018427387904 < span.2 ∧ span.2 < 4611686018427387904) : TimesFit rows := by
  intro key a ha b hb
  have hbounds : ∀ x ∈ spans key rows, -4611686018427387904 < x.start ∧
      x.start < 4611686018427387904 ∧ -4611686018427387904 < x.stop ∧
        x.stop < 4611686018427387904 := by
    intro x hx
    obtain ⟨row, hrow, hspan⟩ := List.mem_filterMap.mp hx
    exact h row hrow (x.start, x.stop) (usageSpan_eq_some.mp hspan).2.2.1
  have hboundsA := hbounds a ha
  have hboundsB := hbounds b hb
  simp only [fits64_iff]
  omega

/-- The earlier row is merged into the later one and its time is gone. -/
theorem backwardRows_lose_time :
    TimesFit backwardRows ∧
      ¬ KeepsTime (appUsageRow 0 0).sequenceKey (appUsageRow 0 0).ruleState backwardRows
        (culverhouseCollapseSameApp backwardRows) := by
  refine ⟨timesFit_of_bounds (by decide), fun hkeeps => ?_⟩
  have hkept : spans (appUsageRow 0 0).sequenceKey (culverhouseCollapseSameApp backwardRows) =
      [⟨(appUsageRow 0 0).ruleState, 10000000000, 20000000000⟩] := by decide +kernel
  obtain ⟨x, hx, -, hstart, -⟩ := hkeeps.keeps 0
    ⟨⟨(appUsageRow 0 0).ruleState, 0, 5000000000⟩, by decide +kernel, rfl, by decide, by decide⟩
  rw [hkept, List.mem_singleton] at hx
  rw [hx] at hstart
  exact absurd hstart (by decide)

/-- Two rows of one app in order, half a second apart. -/
theorem keepsTime_iff_runsForward_forwardRows :
    KeepsTime (appUsageRow 0 0).sequenceKey (appUsageRow 0 0).ruleState
        [appUsageRow 0 5000000000, appUsageRow 5500000000 9000000000]
        (culverhouseCollapseSameApp
          [appUsageRow 0 5000000000, appUsageRow 5500000000 9000000000]) ↔
      RunsForward (appUsageRow 0 0).sequenceKey (appUsageRow 0 0).ruleState
        [appUsageRow 0 5000000000, appUsageRow 5500000000 9000000000] :=
  keepsTime_iff_runsForward (timesFit_of_bounds (by decide)) _ _

end Chronicle.Pipeline
