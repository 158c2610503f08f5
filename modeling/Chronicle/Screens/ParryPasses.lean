import Chronicle.Library.Neighbours
import Chronicle.Library.Ties
import Chronicle.Screens.Partitions

/-!
# The passes over sessions and glances

What the two passes keep is a sequence of starts and stops in pairs, and only the rows and kinds of
the endpoints matter to them. From the kinds in a tie one reads off whether its order matters.
-/

namespace Chronicle.Screens

open Chronicle.Library Chronicle.Library.Neighbours Chronicle.Library.Ties

/-! ## What a pass says of each endpoint -/

/-- An endpoint that the pass keeps. -/
def ParryPass.keeps (pass : ParryPass)
    (context : Option ParryEndpoint × ParryEndpoint × Option ParryEndpoint) :
    Option ParryEndpoint :=
  if (pass.code context.1 context.2.2 context.2.1).isNone then some context.2.1 else none

/-- The issue that the pass has with an endpoint. -/
def ParryPass.reports (pass : ParryPass) (participantId : String)
    (context : Option ParryEndpoint × ParryEndpoint × Option ParryEndpoint) :
    Option ScreenConstructionIssue :=
  (pass.code context.1 context.2.2 context.2.1).map
    (issue participantId context.2.1.row.sourceDataRow)

section Codes

variable {pass : ParryPass} {previous next : Option ParryEndpoint} {l : List ParryEndpoint}
variable {endpoint : ParryEndpoint} {participantId : String}

theorem codes_eq (pass : ParryPass) (previous : Option ParryEndpoint) (l : List ParryEndpoint) :
    pass.codes previous l = (contexts previous l none).map fun context =>
      (context.2.1, pass.code context.1 context.2.2 context.2.1) := by
  induction l generalizing previous with
  | nil => rfl
  | cons endpoint l ih =>
      rw [ParryPass.codes, contexts, List.map_cons, ih, Option.or_none]

theorem kept_eq (pass : ParryPass) (l : List ParryEndpoint) :
    pass.kept l = (contexts none l none).filterMap pass.keeps := by
  rw [ParryPass.kept, codes_eq, List.filterMap_map]
  rfl

@[simp]
theorem map_fst_codes (pass : ParryPass) (previous : Option ParryEndpoint)
    (l : List ParryEndpoint) : (pass.codes previous l).map Prod.fst = l := by
  induction l generalizing previous with
  | nil => rfl
  | cons endpoint l ih => rw [ParryPass.codes, List.map_cons, ih]

/-- What a pass keeps are the endpoints without a code. -/
theorem kept_eq_map_filter (pass : ParryPass) (l : List ParryEndpoint) :
    pass.kept l = ((pass.codes none l).filter (·.2.isNone)).map Prod.fst := by
  rw [ParryPass.kept]
  induction pass.codes none l with
  | nil => rfl
  | cons entry entries ih =>
      rw [List.filterMap_cons, List.filter_cons, ih]
      cases entry.2 <;> rfl

theorem kept_sublist (pass : ParryPass) (l : List ParryEndpoint) : (pass.kept l).Sublist l := by
  have hsub := ((pass.codes none l).filter_sublist (p := fun entry => entry.2.isNone)).map Prod.fst
  rwa [map_fst_codes, ← kept_eq_map_filter] at hsub

theorem issues_eq (pass : ParryPass) (participantId : String) (l : List ParryEndpoint) :
    pass.issues participantId l =
      (contexts none l none).filterMap (pass.reports participantId) := by
  rw [ParryPass.issues, codes_eq, List.filterMap_map]
  rfl

/-- The kind of interval that an issue is about. -/
def codeKind : ScreenConstructionIssueCode → Option ScreenIntervalKind
  | .unmatchedGlanceStopNoPreviousStart | .unmatchedGlanceStopPreviousNotStart
  | .unmatchedGlanceStartNextNotStop | .unmatchedGlanceStartNoNextStop => some .glance
  | .unmatchedSessionStopNoPreviousStart | .unmatchedSessionStopPreviousNotStart
  | .unmatchedSessionStartNextNotStop | .unmatchedSessionStartNoNextStop => some .session
  | _ => none

/-- The two kinds that a pass looks at are a start and a stop of one kind of interval, and its codes
are about that kind. -/
structure ParryPass.Sound (pass : ParryPass) : Prop where
  start : pass.start.isStart = true
  stop : pass.stop.isStart = false
  kind : pass.start.intervalKind = pass.stop.intervalKind
  codes : ∀ code ∈ [pass.startNoNextStop, pass.startNextNotStop, pass.stopNoPreviousStart,
    pass.stopPreviousNotStart], codeKind code = some pass.start.intervalKind

theorem glancePass_sound : glancePass.Sound := ⟨rfl, rfl, rfl, by decide⟩

theorem sessionPass_sound : sessionPass.Sound := ⟨rfl, rfl, rfl, by decide⟩

theorem ParryPass.Sound.ne (h : pass.Sound) : pass.stop ≠ pass.start := by
  intro heq
  have hstop := h.stop
  rw [heq, h.start] at hstop
  exact Bool.noConfusion hstop

theorem code_start_stop {other : ParryEndpoint} (h : endpoint.kind = pass.start)
    (hother : other.kind = pass.stop) : pass.code previous (some other) endpoint = none := by
  simp [ParryPass.code, h, hother]

theorem code_start_other {other : ParryEndpoint} (h : endpoint.kind = pass.start)
    (hother : other.kind ≠ pass.stop) :
    pass.code previous (some other) endpoint = some pass.startNextNotStop := by
  simp [ParryPass.code, h, hother]

theorem code_start_none (h : endpoint.kind = pass.start) :
    pass.code previous none endpoint = some pass.startNoNextStop := by
  simp [ParryPass.code, h]

theorem code_stop_start (hpass : pass.Sound) {other : ParryEndpoint}
    (h : endpoint.kind = pass.stop) (hother : other.kind = pass.start) :
    pass.code (some other) next endpoint = none := by
  simp [ParryPass.code, h, hother, hpass.ne]

theorem code_stop_other (hpass : pass.Sound) {other : ParryEndpoint}
    (h : endpoint.kind = pass.stop) (hother : other.kind ≠ pass.start) :
    pass.code (some other) next endpoint = some pass.stopPreviousNotStart := by
  simp [ParryPass.code, h, hother, hpass.ne]

theorem code_stop_none (hpass : pass.Sound) (h : endpoint.kind = pass.stop) :
    pass.code none next endpoint = some pass.stopNoPreviousStart := by
  simp [ParryPass.code, h, hpass.ne]

theorem code_other (hstart : endpoint.kind ≠ pass.start) (hstop : endpoint.kind ≠ pass.stop) :
    pass.code previous next endpoint = none := by
  simp [ParryPass.code, hstart, hstop]

theorem code_of_kind_ne (hpass : pass.Sound)
    (h : endpoint.kind.intervalKind ≠ pass.start.intervalKind) :
    pass.code previous next endpoint = none :=
  code_other (fun hkind => h (by rw [hkind])) fun hkind => h (by rw [hkind, hpass.kind])

/-- A pass reports only endpoints of its kind, with codes of that kind. -/
theorem kind_of_code (hpass : pass.Sound) {code : ScreenConstructionIssueCode}
    (h : pass.code previous next endpoint = some code) :
    endpoint.kind.intervalKind = pass.start.intervalKind ∧
      codeKind code = some pass.start.intervalKind := by
  refine ⟨?_, hpass.codes code ?_⟩
  · by_contra hkind
    rw [code_of_kind_ne hpass hkind] at h
    exact nomatch h
  · unfold ParryPass.code at h
    split_ifs at h <;> split at h <;> (try split_ifs at h) <;> simp_all

theorem keeps_eq_some (h : pass.code previous next endpoint = none) :
    pass.keeps (previous, endpoint, next) = some endpoint := by
  simp [ParryPass.keeps, h]

theorem keeps_eq_none {code : ScreenConstructionIssueCode}
    (h : pass.code previous next endpoint = some code) :
    pass.keeps (previous, endpoint, next) = none := by
  simp [ParryPass.keeps, h]

end Codes

/-! ## Starts and stops in pairs -/

/-- Every endpoint that the pass looks at is a start before a stop, or that stop. -/
inductive Matched (pass : ParryPass) : List ParryEndpoint → Prop where
  | nil : Matched pass []
  | other {endpoint : ParryEndpoint} {rest : List ParryEndpoint}
      (hstart : endpoint.kind ≠ pass.start) (hstop : endpoint.kind ≠ pass.stop)
      (hrest : Matched pass rest) : Matched pass (endpoint :: rest)
  | pair {start stop : ParryEndpoint} {rest : List ParryEndpoint}
      (hstart : start.kind = pass.start) (hstop : stop.kind = pass.stop)
      (hrest : Matched pass rest) : Matched pass (start :: stop :: rest)

/-- Starts, each with the stop that ends its interval. -/
inductive Pairs : List ParryEndpoint → Prop where
  | nil : Pairs []
  | cons {start stop : ParryEndpoint} {rest : List ParryEndpoint}
      (hstart : start.kind.isStart = true) (hstop : stop.kind.isStart = false)
      (hkind : start.kind.intervalKind = stop.kind.intervalKind) (hrest : Pairs rest) :
      Pairs (start :: stop :: rest)

section Pairing

variable {pass : ParryPass} {previous : Option ParryEndpoint} {l : List ParryEndpoint}

/-- No pair is cut in two before the list. -/
def NotWithin (pass : ParryPass) (previous : Option ParryEndpoint) (l : List ParryEndpoint) : Prop :=
  ∀ before ∈ previous, before.kind = pass.start → ∀ first ∈ l.head?, first.kind ≠ pass.stop

theorem notWithin_of_ne {before : ParryEndpoint} (h : before.kind ≠ pass.start)
    (l : List ParryEndpoint) : NotWithin pass (some before) l := by
  intro other hother hstart
  rw [Option.mem_some_iff.mp hother] at h
  exact absurd hstart h

theorem matched_filterMap_keeps (hpass : pass.Sound) (l : List ParryEndpoint)
    (previous : Option ParryEndpoint) (h : NotWithin pass previous l) :
    Matched pass ((contexts previous l none).filterMap pass.keeps) := by
  cases l with
  | nil => exact .nil
  | cons endpoint rest =>
      rw [contexts, Option.or_none]
      by_cases hstart : endpoint.kind = pass.start
      · cases rest with
        | nil =>
            rw [List.head?_nil, List.filterMap_cons_none (keeps_eq_none (code_start_none hstart))]
            exact .nil
        | cons next rest =>
            by_cases hstop : next.kind = pass.stop
            · have hnext : next.kind ≠ pass.start := hstop ▸ hpass.ne
              rw [List.head?_cons, List.filterMap_cons_some
                  (keeps_eq_some (code_start_stop hstart hstop)), contexts,
                List.filterMap_cons_some (keeps_eq_some (code_stop_start hpass hstop hstart))]
              exact .pair hstart hstop
                (matched_filterMap_keeps hpass rest (some next) (notWithin_of_ne hnext rest))
            · rw [List.head?_cons, List.filterMap_cons_none
                (keeps_eq_none (code_start_other hstart hstop))]
              refine matched_filterMap_keeps hpass (next :: rest) (some endpoint) ?_
              intro before _ _ first hfirst
              rwa [← Option.mem_some_iff.mp hfirst]
      · have hrest := matched_filterMap_keeps hpass rest (some endpoint)
          (notWithin_of_ne hstart rest)
        by_cases hstop : endpoint.kind = pass.stop
        · have hnone : pass.keeps (previous, endpoint, rest.head?) = none := by
            cases previous with
            | none => exact keeps_eq_none (code_stop_none hpass hstop)
            | some before =>
                refine keeps_eq_none (code_stop_other hpass hstop fun hbefore => ?_)
                exact h before rfl hbefore endpoint rfl hstop
          rw [List.filterMap_cons_none hnone]
          exact hrest
        · rw [List.filterMap_cons_some (keeps_eq_some (code_other hstart hstop))]
          exact .other hstart hstop hrest
termination_by l.length

/-- What a pass keeps of its kinds is in pairs. -/
theorem matched_kept (hpass : pass.Sound) (l : List ParryEndpoint) :
    Matched pass (pass.kept l) := by
  rw [kept_eq]
  exact matched_filterMap_keeps hpass l none fun _ h => by simp at h

theorem pairs_filterMap_keeps (l : List ParryEndpoint) (hl : Matched glancePass l)
    (previous : Option ParryEndpoint) (h : NotWithin sessionPass previous l) :
    Pairs ((contexts previous l none).filterMap sessionPass.keeps) := by
  cases hl with
  | nil => exact .nil
  | @pair start stop rest hstart hstop hrest =>
      -- a glance pair means nothing to the session pass and survives it
      have hstartOther : ∀ {p n}, sessionPass.code p n start = none :=
        code_of_kind_ne sessionPass_sound (by rw [hstart]; decide)
      have hstopOther : ∀ {p n}, sessionPass.code p n stop = none :=
        code_of_kind_ne sessionPass_sound (by rw [hstop]; decide)
      rw [contexts, List.filterMap_cons_some (keeps_eq_some hstartOther), contexts,
        List.filterMap_cons_some (keeps_eq_some hstopOther)]
      refine .cons (by rw [hstart]; rfl) (by rw [hstop]; rfl) (by rw [hstart, hstop]; rfl) ?_
      exact pairs_filterMap_keeps rest hrest (some stop)
        (notWithin_of_ne (by rw [hstop]; decide) rest)
  | @other endpoint rest hstart hstop hrest =>
      rw [contexts, Option.or_none]
      by_cases hsession : endpoint.kind = sessionPass.start
      · cases rest with
        | nil =>
            rw [List.head?_nil, List.filterMap_cons_none (keeps_eq_none (code_start_none hsession))]
            exact .nil
        | cons next rest =>
            by_cases hnext : next.kind = sessionPass.stop
            · -- the stop is no glance start, so the rest of the list is matched without it
              have hrest : Matched glancePass rest := by
                cases hrest with
                | other _ _ hrest => exact hrest
                | pair hglance _ _ =>
                    rw [hnext] at hglance
                    cases hglance
              rw [List.head?_cons, List.filterMap_cons_some
                  (keeps_eq_some (code_start_stop hsession hnext)), contexts,
                List.filterMap_cons_some
                  (keeps_eq_some (code_stop_start sessionPass_sound hnext hsession))]
              refine .cons (by rw [hsession]; rfl) (by rw [hnext]; rfl)
                (by rw [hsession, hnext]; rfl) ?_
              exact pairs_filterMap_keeps rest hrest (some next)
                (notWithin_of_ne (by rw [hnext]; decide) rest)
            · rw [List.head?_cons, List.filterMap_cons_none
                (keeps_eq_none (code_start_other hsession hnext))]
              refine pairs_filterMap_keeps (next :: rest) hrest (some endpoint) ?_
              intro before _ _ first hfirst
              rwa [← Option.mem_some_iff.mp hfirst]
      · have hkind : endpoint.kind = sessionPass.stop := by
          cases hkind : endpoint.kind with
          | glanceStart => exact absurd hkind hstart
          | glanceStop => exact absurd hkind hstop
          | sessionStart => exact absurd hkind hsession
          | sessionStop => rfl
        have hnone : sessionPass.keeps (previous, endpoint, rest.head?) = none := by
          cases previous with
          | none => exact keeps_eq_none (code_stop_none sessionPass_sound hkind)
          | some before =>
              refine keeps_eq_none (code_stop_other sessionPass_sound hkind fun hbefore => ?_)
              exact h before rfl hbefore endpoint rfl hkind
        rw [List.filterMap_cons_none hnone]
        exact pairs_filterMap_keeps rest hrest (some endpoint) (notWithin_of_ne hsession rest)
termination_by l.length

/-- The endpoints that survive both passes are in pairs. -/
theorem pairs_survivors (l : List ParryEndpoint) :
    Pairs (sessionPass.kept (glancePass.kept l)) := by
  rw [kept_eq sessionPass]
  exact pairs_filterMap_keeps _ (matched_kept glancePass_sound l) none fun _ h => by simp at h

end Pairing

/-! ## Rows and kinds are all that matters -/

/-- The endpoint without the rows that classify it. -/
def ParryEndpoint.strip (endpoint : ParryEndpoint) : ParryEndpoint :=
  { endpoint with classificationRows := [] }

/-- The kind and the boundaries of an interval. -/
def intervalOutline (interval : ScreenIntervalEvidence) : ScreenIntervalKind × Nat × Option Nat :=
  (interval.kind, interval.startBoundarySourceRow, interval.stopBoundarySourceRow)

section Outline

variable {sha256 : List UInt8 → List UInt8} {participantId : String} {pass : ParryPass}
variable {l l' : List ParryEndpoint}

theorem code_strip (pass : ParryPass) (previous next : Option ParryEndpoint)
    (endpoint : ParryEndpoint) :
    pass.code (previous.map .strip) (next.map .strip) endpoint.strip =
      pass.code previous next endpoint := by
  cases previous <;> cases next <;> rfl

theorem kept_map_strip (pass : ParryPass) (l : List ParryEndpoint) :
    pass.kept (l.map .strip) = (pass.kept l).map .strip := by
  have hcontexts := contexts_map ParryEndpoint.strip none l none
  rw [Option.map_none] at hcontexts
  rw [kept_eq, kept_eq, hcontexts, List.filterMap_map, List.map_filterMap]
  refine List.filterMap_congr fun context _ => ?_
  simp only [Function.comp_apply, ParryPass.keeps, code_strip]
  split <;> rfl

theorem issues_map_strip (pass : ParryPass) (l : List ParryEndpoint) :
    pass.issues participantId (l.map .strip) = pass.issues participantId l := by
  have hcontexts := contexts_map ParryEndpoint.strip none l none
  rw [Option.map_none] at hcontexts
  rw [issues_eq, issues_eq, hcontexts, List.filterMap_map]
  refine List.filterMap_congr fun context _ => ?_
  simp only [Function.comp_apply, ParryPass.reports, code_strip]
  rfl

theorem intervalOutline_makeScreenInterval {strategyId : Strategy} {kind : ScreenIntervalKind}
    {start : RawB05Event} {stop : Option RawB05Event} {startRows stopRows : List Nat}
    {reason : ScreenIntervalCloseReason} :
    intervalOutline (makeScreenInterval sha256 participantId strategyId kind start stop startRows
      stopRows reason) = (kind, start.sourceDataRow, stop.map (·.sourceDataRow)) := rfl

theorem parryInterval_outline {start stop : ParryEndpoint} {interval : ScreenIntervalEvidence}
    (h : parryInterval sha256 participantId start stop = some interval) :
    intervalOutline interval =
      (start.kind.intervalKind, start.row.sourceDataRow, some stop.row.sourceDataRow) := by
  unfold parryInterval at h
  split at h
  · rw [← Option.some.inj h, intervalOutline_makeScreenInterval]
    rfl
  · exact nomatch h

theorem parryIntervals_map_strip (l : List ParryEndpoint) :
    (parryIntervals sha256 participantId (l.map .strip)).map intervalOutline =
      (parryIntervals sha256 participantId l).map intervalOutline := by
  match l with
  | [] => rfl
  | [_] => rfl
  | start :: stop :: rest =>
      have ih := parryIntervals_map_strip (stop :: rest)
      have hfirst : ((parryInterval sha256 participantId start.strip stop.strip).toList).map
          intervalOutline =
          ((parryInterval sha256 participantId start stop).toList).map intervalOutline := by
        have hkind : ∀ endpoint : ParryEndpoint, endpoint.strip.kind = endpoint.kind :=
          fun _ => rfl
        unfold parryInterval
        rw [hkind, hkind]
        split
        · rw [Option.toList_some, Option.toList_some, List.map_singleton, List.map_singleton,
            intervalOutline_makeScreenInterval, intervalOutline_makeScreenInterval]
          rfl
        · rfl
      rw [List.map_cons, List.map_cons, parryIntervals, parryIntervals, List.map_append,
        List.map_append, hfirst]
      exact congrArg _ ih

/-- The outlines of the intervals, and the issues. -/
def ScreenSemanticSignature.outline (signature : ScreenSemanticSignature) :
    List (ScreenIntervalKind × Nat × Option Nat) × List ScreenConstructionIssue :=
  (signature.intervals.map intervalOutline, signature.issues)

theorem outline_map_strip (l : List ParryEndpoint) :
    (parryPartition sha256 participantId (l.map .strip)).outline =
      (parryPartition sha256 participantId l).outline := by
  simp only [ScreenSemanticSignature.outline, parryPartition, kept_map_strip, issues_map_strip,
    parryIntervals_map_strip]

theorem mem_parryIntervals {interval : ScreenIntervalEvidence} (l : List ParryEndpoint) :
    interval ∈ parryIntervals sha256 participantId l ↔ ∃ first start stop last,
      l = first ++ start :: stop :: last ∧
        parryInterval sha256 participantId start stop = some interval := by
  match l with
  | [] => simp [parryIntervals]
  | [endpoint] =>
      refine ⟨fun h => absurd h List.not_mem_nil, ?_⟩
      rintro ⟨first, start, stop, last, h, -⟩
      have := congrArg List.length h
      simp at this
      omega
  | endpoint :: next :: rest =>
      rw [parryIntervals, List.mem_append, mem_parryIntervals (next :: rest), Option.mem_toList]
      constructor
      · rintro (h | ⟨first, start, stop, last, h, hinterval⟩)
        · exact ⟨[], endpoint, next, rest, rfl, h⟩
        · exact ⟨endpoint :: first, start, stop, last, by rw [h, List.cons_append], hinterval⟩
      · rintro ⟨first, start, stop, last, h, hinterval⟩
        cases first with
        | nil =>
            simp only [List.nil_append, List.cons.injEq] at h
            obtain ⟨rfl, rfl, -⟩ := h
            exact .inl hinterval
        | cons before first =>
            exact .inr ⟨first, start, stop, last, (List.cons.inj h).2, hinterval⟩

/-! ## Every endpoint is named -/

/-- The signature names the row as an endpoint of that kind. -/
def Names (signature : ScreenSemanticSignature) (kind : ScreenIntervalKind) (source : Nat) : Prop :=
  (∃ issue ∈ signature.issues, issue.sourceDataRow = source ∧ codeKind issue.code = some kind) ∨
    ∃ outline ∈ signature.outline.1, outline.1 = kind ∧
      (outline.2.1 = source ∨ outline.2.2 = some source)

variable {endpoint : ParryEndpoint}

theorem exists_context (h : endpoint ∈ l) :
    ∃ previous next, (previous, endpoint, next) ∈ contexts none l none := by
  rw [← map_contexts none l none] at h
  obtain ⟨⟨previous, _, next⟩, hcontext, rfl⟩ := List.mem_map.mp h
  exact ⟨previous, next, hcontext⟩

theorem mem_of_mem_contexts {context : Option ParryEndpoint × ParryEndpoint × Option ParryEndpoint}
    (h : context ∈ contexts none l none) : context.2.1 ∈ l := by
  rw [← map_contexts none l none]
  exact List.mem_map_of_mem h

variable (participantId) in
/-- A pass reports an endpoint or keeps it. -/
theorem mem_issues_or_mem_kept (hpass : pass.Sound) (h : endpoint ∈ l) :
    (∃ issue ∈ pass.issues participantId l, issue.sourceDataRow = endpoint.row.sourceDataRow ∧
      codeKind issue.code = some endpoint.kind.intervalKind) ∨ endpoint ∈ pass.kept l := by
  obtain ⟨previous, next, hcontext⟩ := exists_context h
  rw [issues_eq, kept_eq]
  cases hcode : pass.code previous next endpoint with
  | none => exact .inr (List.mem_filterMap.mpr ⟨_, hcontext, keeps_eq_some hcode⟩)
  | some code =>
      refine .inl ⟨issue participantId endpoint.row.sourceDataRow code,
        List.mem_filterMap.mpr ⟨_, hcontext, by simp [ParryPass.reports, hcode]⟩, rfl, ?_⟩
      obtain ⟨hkind, hcodeKind⟩ := kind_of_code hpass hcode
      rw [hkind]
      exact hcodeKind

theorem exists_pair_of_mem (hpairs : Pairs l) (h : endpoint ∈ l) :
    ∃ first start stop last, l = first ++ start :: stop :: last ∧ start.kind.isStart = true ∧
      start.kind.intervalKind = stop.kind.intervalKind ∧ (endpoint = start ∨ endpoint = stop) := by
  induction hpairs with
  | nil => exact absurd h List.not_mem_nil
  | @cons start stop rest hstart hstop hkind _ ih =>
      rcases List.mem_cons.mp h with rfl | h
      · exact ⟨[], endpoint, stop, rest, rfl, hstart, hkind, .inl rfl⟩
      · rcases List.mem_cons.mp h with rfl | h
        · exact ⟨[], start, endpoint, rest, rfl, hstart, hkind, .inr rfl⟩
        · obtain ⟨first, start', stop', last, rfl, hrest⟩ := ih h
          exact ⟨start :: stop :: first, start', stop', last, rfl, hrest⟩

variable (sha256 participantId) in
/-- Every endpoint is named as what it is. -/
theorem names_of_mem (h : endpoint ∈ l) :
    Names (parryPartition sha256 participantId l) endpoint.kind.intervalKind
      endpoint.row.sourceDataRow := by
  rcases mem_issues_or_mem_kept participantId glancePass_sound h with
    ⟨issue, hissue, hnames⟩ | hkept
  · exact .inl ⟨issue, List.mem_append_left _ hissue, hnames⟩
  · rcases mem_issues_or_mem_kept participantId sessionPass_sound hkept with
      ⟨issue, hissue, hnames⟩ | hkept
    · exact .inl ⟨issue, List.mem_append_right _ hissue, hnames⟩
    · obtain ⟨first, start, stop, last, hsplit, hstart, hkind, hendpoint⟩ :=
        exists_pair_of_mem (pairs_survivors l) hkept
      have hinterval : ∃ interval, parryInterval sha256 participantId start stop = some interval := by
        rw [parryInterval, if_pos ⟨hstart, hkind⟩]
        exact ⟨_, rfl⟩
      obtain ⟨interval, hinterval⟩ := hinterval
      have hmem : interval ∈ (parryPartition sha256 participantId l).intervals :=
        (mem_parryIntervals _).mpr ⟨first, start, stop, last, hsplit, hinterval⟩
      refine .inr ⟨_, List.mem_map_of_mem hmem, ?_⟩
      rw [parryInterval_outline hinterval]
      rcases hendpoint with rfl | rfl
      · exact ⟨rfl, .inl rfl⟩
      · exact ⟨hkind, .inr rfl⟩

theorem mem_of_mem_kept (h : endpoint ∈ pass.kept l) : endpoint ∈ l := by
  rw [kept_eq] at h
  obtain ⟨context, hcontext, hkeeps⟩ := List.mem_filterMap.mp h
  unfold ParryPass.keeps at hkeeps
  split at hkeeps
  · rw [← Option.some.inj hkeeps]
    exact mem_of_mem_contexts hcontext
  · exact nomatch hkeeps

/-- An issue of a pass is the code of an endpoint between its neighbours. -/
theorem exists_of_mem_issues {issue' : ScreenConstructionIssue}
    (h : issue' ∈ pass.issues participantId l) :
    ∃ first endpoint last code, l = first ++ endpoint :: last ∧
      pass.code first.getLast? last.head? endpoint = some code ∧
      issue' = issue participantId endpoint.row.sourceDataRow code := by
  rw [issues_eq] at h
  obtain ⟨context, hcontext, hreports⟩ := List.mem_filterMap.mp h
  obtain ⟨first, endpoint, last, hsplit, rfl⟩ := exists_split_of_mem_contexts hcontext
  simp only [ParryPass.reports, Option.map_eq_some_iff, Option.or_none] at hreports
  obtain ⟨code, hcode, rfl⟩ := hreports
  exact ⟨first, endpoint, last, code, hsplit, hcode, rfl⟩

/-- What is named is an endpoint of that kind. -/
theorem exists_of_names {kind : ScreenIntervalKind} {source : Nat}
    (h : Names (parryPartition sha256 participantId l) kind source) :
    ∃ endpoint ∈ l, endpoint.row.sourceDataRow = source ∧ endpoint.kind.intervalKind = kind := by
  have hissues : ∀ {pass : ParryPass} {l : List ParryEndpoint}, pass.Sound →
      ∀ issue ∈ pass.issues participantId l, codeKind issue.code = some kind →
        ∃ endpoint ∈ l, endpoint.row.sourceDataRow = issue.sourceDataRow ∧
          endpoint.kind.intervalKind = kind := by
    intro pass l hpass issue hissue hcodeKind
    obtain ⟨first, endpoint, last, code, rfl, hcode, rfl⟩ := exists_of_mem_issues hissue
    obtain ⟨hkind, hcodeKind'⟩ := kind_of_code hpass hcode
    have hsame : some pass.start.intervalKind = some kind := hcodeKind'.symm.trans hcodeKind
    exact ⟨endpoint, by simp, rfl, hkind.trans (Option.some.inj hsame)⟩
  rcases h with ⟨issue, hissue, rfl, hcodeKind⟩ | ⟨outline, houtline, rfl, hsource⟩
  · rcases List.mem_append.mp hissue with hissue | hissue
    · exact hissues glancePass_sound issue hissue hcodeKind
    · obtain ⟨endpoint, hmem, hendpoint⟩ := hissues sessionPass_sound issue hissue hcodeKind
      exact ⟨endpoint, mem_of_mem_kept hmem, hendpoint⟩
  · obtain ⟨interval, hinterval, rfl⟩ := List.mem_map.mp houtline
    obtain ⟨first, start, stop, last, hsplit, hinterval⟩ := (mem_parryIntervals _).mp hinterval
    have hmem : ∀ endpoint ∈ [start, stop], endpoint ∈ l := fun endpoint h =>
      mem_of_mem_kept (mem_of_mem_kept (by
        rw [hsplit]
        exact List.mem_append_right _ (List.mem_append_left _ h)))
    rw [parryInterval_outline hinterval] at hsource ⊢
    have hkind : start.kind.intervalKind = stop.kind.intervalKind := by
      unfold parryInterval at hinterval
      split at hinterval
      case isTrue h => exact h.2
      case isFalse => exact nomatch hinterval
    rcases hsource with hsource | hsource
    · exact ⟨start, hmem start (by simp), hsource, rfl⟩
    · exact ⟨stop, hmem stop (by simp), Option.some.inj hsource, hkind.symm⟩

end Outline

end Chronicle.Screens
