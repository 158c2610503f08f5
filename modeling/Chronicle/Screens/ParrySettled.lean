import Chronicle.Library.TiedNeighbours
import Chronicle.Screens.ParryTies

/-!
# Ties under the session and glance rules

The screen projection is read in two steps: the rows become endpoints, each between its neighbours,
and the endpoints go through the passes. The order of ties does not matter exactly when no row reads
differently beside other tied rows and every tie of endpoints is settled.
-/

namespace Chronicle.Screens

open Chronicle.Library Chronicle.Library.Neighbours Chronicle.Library.Ties

/-- The endpoints that survive both passes. -/
def survivors (rows : List RawB05Event) : List ParryEndpoint :=
  sessionPass.kept (glancePass.kept (parryEndpoints none rows))

/-- A row reads the same whatever can stand beside it: it has the same kind and, if it bounds an
interval, the same classification. -/
def SteadyRow (rows : List RawB05Event) (row : RawB05Event) : Prop :=
  ∀ pair ∈ neighbours RawB05Event.ns rows row, ∀ pair' ∈ neighbours RawB05Event.ns rows row,
    parryKind pair.1 pair.2 row = parryKind pair'.1 pair'.2 row ∧
      (row ∈ (survivors rows).map (·.row) →
        parryEndpoint pair.1 pair.2 row = parryEndpoint pair'.1 pair'.2 row)

/-- No tie of the screen projection matters. -/
def ParrySettled (rows : List RawB05Event) : Prop :=
  (∀ row ∈ rows, SteadyRow rows row) ∧
    EndpointsSettled [] (ties (fun endpoint : ParryEndpoint => endpoint.row.ns)
      ((parryEndpoints none rows).map .strip))

section

variable {sha256 : List UInt8 → List UInt8} {participantId : String}
variable {rows rows' : List RawB05Event} {row : RawB05Event} {endpoint : ParryEndpoint}

theorem DistinctRows.nodup (h : DistinctRows rows) : rows.Nodup := List.Nodup.of_map _ h

theorem parryEndpoints_eq (previous : Option RawB05Event) (rows : List RawB05Event) :
    parryEndpoints previous rows = (contexts previous rows none).filterMap fun context =>
      parryEndpoint context.1 context.2.2 context.2.1 := by
  induction rows generalizing previous with
  | nil => rfl
  | cons row rows ih =>
      rw [parryEndpoints, contexts, Option.or_none, ih, List.filterMap_cons]
      cases parryEndpoint previous rows.head? row <;> rfl

theorem row_of_parryEndpoint {previous next : Option RawB05Event}
    (h : parryEndpoint previous next row = some endpoint) : endpoint.row = row := by
  obtain ⟨kind, -, rfl⟩ := Option.map_eq_some_iff.mp h
  rfl

/-- An endpoint is a row between its neighbours. -/
theorem mem_parryEndpoints :
    endpoint ∈ parryEndpoints none rows ↔ ∃ first row last, rows = first ++ row :: last ∧
      parryEndpoint first.getLast? last.head? row = some endpoint := by
  rw [parryEndpoints_eq, List.mem_filterMap]
  constructor
  · rintro ⟨context, hcontext, hendpoint⟩
    obtain ⟨first, row, last, rfl, rfl⟩ := exists_split_of_mem_contexts hcontext
    simp only [Option.or_none] at hendpoint
    exact ⟨first, row, last, rfl, hendpoint⟩
  · rintro ⟨first, row, last, rfl, hendpoint⟩
    refine ⟨_, mem_contexts_append_cons none first row last none, ?_⟩
    simpa only [Option.or_none] using hendpoint

theorem sources_parryEndpoints_sublist (rows : List RawB05Event) :
    (sources (parryEndpoints none rows)).Sublist (rows.map (·.sourceDataRow)) := by
  have hgeneral : ∀ previous, (sources (parryEndpoints previous rows)).Sublist
      (rows.map (·.sourceDataRow)) := by
    induction rows with
    | nil => exact fun _ => List.Sublist.slnil
    | cons row rows ih =>
        intro previous
        rw [parryEndpoints, List.map_cons]
        cases h : parryEndpoint previous rows.head? row with
        | none => exact (ih (some row)).cons _
        | some endpoint =>
            have hrow : endpoint.row.sourceDataRow = row.sourceDataRow := by
              rw [row_of_parryEndpoint h]
            rw [Option.toList_some, List.singleton_append, sources, List.map_cons, hrow]
            exact (ih (some row)).cons_cons _
  exact hgeneral none

/-! ## What a row stands for in every order -/

/-- The endpoint that a row stands for, without the rows that classify it. -/
def standsFor (rows : List RawB05Event) (row : RawB05Event) : Option ParryEndpoint :=
  let pair := (neighbours RawB05Event.ns rows row).headD (none, none)
  (parryKind pair.1 pair.2 row).map fun kind => { row, kind, classificationRows := [] }

theorem row_of_standsFor (h : standsFor rows row = some endpoint) : endpoint.row = row := by
  obtain ⟨kind, -, rfl⟩ := Option.map_eq_some_iff.mp h
  rfl

variable (hsorted : rows.Pairwise fun a b => a.ns ≤ b.ns) (hdistinct : DistinctRows rows)
include hsorted hdistinct

/-- What stands beside a row in a reordering can stand beside it. -/
theorem mem_neighbours_of_reordering (h : Reordering RawB05Event.ns rows rows')
    {first last : List RawB05Event} (hsplit : rows' = first ++ row :: last) :
    (first.getLast?, last.head?) ∈ neighbours RawB05Event.ns rows row := by
  rw [← h.mem_neighbours_iff hsorted, hsplit]
  subst hsplit
  exact mem_neighbours (h.pairwise hsorted) (hdistinct.perm h.1.symm).nodup

/-- Rows and kinds of the endpoints are the same in every order. -/
theorem map_strip_parryEndpoints
    (hkinds : ∀ row ∈ rows, ∀ pair ∈ neighbours RawB05Event.ns rows row,
      ∀ pair' ∈ neighbours RawB05Event.ns rows row,
        parryKind pair.1 pair.2 row = parryKind pair'.1 pair'.2 row)
    (h : Reordering RawB05Event.ns rows rows') :
    (parryEndpoints none rows').map .strip = rows'.filterMap (standsFor rows) := by
  have hcontexts : (contexts none rows' none).filterMap
      (fun context => standsFor rows context.2.1) = rows'.filterMap (standsFor rows) := by
    conv_rhs => rw [← map_contexts none rows' none, List.filterMap_map]
    rfl
  rw [parryEndpoints_eq, List.map_filterMap, ← hcontexts]
  refine List.filterMap_congr fun context hcontext => ?_
  obtain ⟨first, row, last, hsplit, rfl⟩ := exists_split_of_mem_contexts hcontext
  have hmem := mem_neighbours_of_reordering hsorted hdistinct h hsplit
  have hrow : row ∈ rows := h.1.mem_iff.mp (by simp [hsplit])
  have hhead : (neighbours RawB05Event.ns rows row).headD (none, none) ∈
      neighbours RawB05Event.ns rows row := by
    cases hlist : neighbours RawB05Event.ns rows row with
    | nil => rw [hlist] at hmem; exact absurd hmem List.not_mem_nil
    | cons pair pairs => exact List.mem_cons_self
  simp only [Option.or_none, parryEndpoint, standsFor, Option.map_map]
  rw [hkinds row hrow _ hmem _ hhead]
  rfl

omit hdistinct in
theorem reordering_standsFor (h : Reordering RawB05Event.ns rows rows') :
    Reordering (fun endpoint : ParryEndpoint => endpoint.row.ns)
      (rows.filterMap (standsFor rows)) (rows'.filterMap (standsFor rows)) := by
  have hpairwise : ∀ {l : List RawB05Event}, l.Pairwise (fun a b => a.ns ≤ b.ns) →
      (l.filterMap (standsFor rows)).Pairwise fun a b => a.row.ns ≤ b.row.ns := by
    intro l hl
    refine List.pairwise_filterMap.mpr (hl.imp fun {a b} hab e he e' he' => ?_)
    rw [row_of_standsFor he, row_of_standsFor he']
    exact hab
  exact reordering_of_pairwise (h.1.filterMap _) (hpairwise hsorted)
    (hpairwise (h.pairwise hsorted))

/-! ## Settled ties do not matter -/

omit hsorted hdistinct in
/-- Lists with equal images are equal when the map tells their elements apart. -/
theorem eq_of_map_eq {α β : Type} {f : α → β} {l l' : List α} (h : l'.map f = l.map f)
    (hinj : ∀ a' ∈ l', ∀ a ∈ l, f a' = f a → a' = a) : l' = l := by
  refine List.ext_getElem (by simpa using congrArg List.length h) fun i hi hi' => ?_
  refine hinj _ (List.getElem_mem hi) _ (List.getElem_mem hi') ?_
  have hget := List.getElem_of_eq h (i := i) (by simpa using hi)
  rwa [List.getElem_map, List.getElem_map] at hget

omit hsorted hdistinct in
theorem survivors_map_strip (rows : List RawB05Event) :
    (survivors rows).map .strip =
      sessionPass.kept (glancePass.kept ((parryEndpoints none rows).map .strip)) := by
  rw [survivors, kept_map_strip, kept_map_strip]

/-- When nothing that is tied matters, every order constructs the same. -/
theorem parryPartition_eq_of_settled (hsettled : ParrySettled rows)
    (h : Reordering RawB05Event.ns rows rows') :
    parryPartition sha256 participantId (parryEndpoints none rows') =
      parryPartition sha256 participantId (parryEndpoints none rows) := by
  obtain ⟨hsteady, hties⟩ := hsettled
  have hkinds := fun row hrow pair hpair pair' hpair' =>
    (hsteady row hrow pair hpair pair' hpair').1
  have hself : Reordering RawB05Event.ns rows rows := ⟨.refl _, rfl⟩
  have hstrip := map_strip_parryEndpoints hsorted hdistinct hkinds hself
  have hstrip' := map_strip_parryEndpoints hsorted hdistinct hkinds h
  have hreorder := reordering_standsFor hsorted h
  have hkeys : (rows.filterMap (standsFor rows)).Pairwise fun a b => a.row.ns ≤ b.row.ns := by
    refine List.pairwise_filterMap.mpr (hsorted.imp fun {a b} hab e he e' he' => ?_)
    rw [row_of_standsFor he, row_of_standsFor he']
    exact hab
  have hflat := flatten_ties hkeys
  have hflat' := flatten_ties (hreorder.pairwise hkeys)
  rw [hstrip] at hties
  have hne : ∀ group ∈ ties (fun endpoint : ParryEndpoint => endpoint.row.ns)
      (rows.filterMap (standsFor rows)), group ≠ [] := fun group hg => ne_nil_of_mem_ties hg
  have hkept := kept_glance_eq hne hties hreorder.forall₂_ties
  have hissues := issues_glance_eq participantId hne hties hreorder.forall₂_ties
  rw [hflat, hflat', ← hstrip, ← hstrip'] at hkept hissues
  rw [issues_map_strip, issues_map_strip] at hissues
  -- the surviving endpoints agree up to their context, and a survivor's row has one context only
  have hsurvivors : survivors rows' = survivors rows := by
    have hmap : (survivors rows').map ParryEndpoint.strip =
        (survivors rows).map ParryEndpoint.strip := by
      rw [survivors_map_strip, survivors_map_strip, hkept]
    refine eq_of_map_eq hmap fun e' he' e he heq => ?_
    have hrow : e'.strip.row = e.strip.row := congrArg ParryEndpoint.row heq
    have hrow : e'.row = e.row := hrow
    obtain ⟨first', row', last', hsplit', hendpoint'⟩ :=
      mem_parryEndpoints.mp (mem_of_mem_kept (mem_of_mem_kept he'))
    obtain ⟨first, row, last, hsplit, hendpoint⟩ :=
      mem_parryEndpoints.mp (mem_of_mem_kept (mem_of_mem_kept he))
    obtain rfl : row' = row := by
      rw [← row_of_parryEndpoint hendpoint', ← row_of_parryEndpoint hendpoint, hrow]
    have hmem : row' ∈ rows := by simp [hsplit]
    have hsame := (hsteady row' hmem _
      (mem_neighbours_of_reordering hsorted hdistinct h hsplit') _
      (mem_neighbours_of_reordering hsorted hdistinct hself hsplit)).2
      (List.mem_map.mpr ⟨e, he, row_of_parryEndpoint hendpoint⟩)
    rw [hendpoint', hendpoint] at hsame
    exact Option.some.inj hsame
  have hsession : sessionPass.issues participantId (glancePass.kept (parryEndpoints none rows')) =
      sessionPass.issues participantId (glancePass.kept (parryEndpoints none rows)) := by
    have hmap : (glancePass.kept (parryEndpoints none rows')).map ParryEndpoint.strip =
        (glancePass.kept (parryEndpoints none rows)).map ParryEndpoint.strip := by
      rw [← kept_map_strip, ← kept_map_strip, hkept]
    rw [← issues_map_strip sessionPass (glancePass.kept (parryEndpoints none rows')), hmap,
      issues_map_strip]
  simp only [parryPartition]
  rw [hissues, hsession]
  exact congrArg (fun kept => ScreenSemanticSignature.mk
    (parryIntervals sha256 participantId kept) _) hsurvivors

/-! ## Ties that matter -/

variable (hfree : ∀ rows', Reordering RawB05Event.ns rows rows' →
  parryPartition sha256 participantId (parryEndpoints none rows') =
    parryPartition sha256 participantId (parryEndpoints none rows))

omit hsorted hdistinct in
/-- An endpoint of the row where the row stands. -/
theorem parryEndpoint_of_mem {first last : List RawB05Event}
    (hdistinct : DistinctRows (first ++ row :: last))
    (h : endpoint ∈ parryEndpoints none (first ++ row :: last))
    (hrow : endpoint.row.sourceDataRow = row.sourceDataRow) :
    parryEndpoint first.getLast? last.head? row = some endpoint := by
  obtain ⟨first', row', last', hsplit, hendpoint⟩ := mem_parryEndpoints.mp h
  have hrow' : row' = row := by
    rw [row_of_parryEndpoint hendpoint] at hrow
    refine List.inj_on_of_nodup_map hdistinct ?_ (by simp) hrow
    rw [hsplit]
    simp
  subst hrow'
  have hnodup := hdistinct.nodup
  obtain ⟨-, hrest, hcross⟩ := List.nodup_append.mp hnodup
  have hfirst : row' ∉ first := fun hmem => hcross row' hmem row' List.mem_cons_self rfl
  obtain ⟨rfl, -, rfl⟩ := (List.append_cons_inj_of_notMem hfirst
    (List.nodup_cons.mp hrest).1).mp hsplit
  exact hendpoint

include hfree

/-- A row is of one kind in every order. -/
theorem parryKind_eq_of_orderFree (hrow : row ∈ rows) {pair pair' : Option RawB05Event × Option RawB05Event}
    (hpair : pair ∈ neighbours RawB05Event.ns rows row)
    (hpair' : pair' ∈ neighbours RawB05Event.ns rows row) :
    parryKind pair.1 pair.2 row = parryKind pair'.1 pair'.2 row := by
  obtain ⟨first, last, hreorder, hprevious, hnext⟩ :=
    exists_reordering_of_mem_neighbours hsorted hrow hpair
  obtain ⟨first', last', hreorder', hprevious', hnext'⟩ :=
    exists_reordering_of_mem_neighbours hsorted hrow hpair'
  rw [← hprevious, ← hnext, ← hprevious', ← hnext']
  have hsame := (hfree _ hreorder).trans (hfree _ hreorder').symm
  cases hkind : parryKind first.getLast? last.head? row with
  | none =>
      unfold parryKind at hkind ⊢
      cases hsignal : row.signal <;> rw [hsignal] at hkind <;> first | rfl | exact nomatch hkind
  | some kind =>
      have hendpoint : parryEndpoint first.getLast? last.head? row =
          some ⟨row, kind, parryClassificationRows first.getLast? last.head? row kind⟩ := by
        rw [parryEndpoint, hkind, Option.map_some]
      have hnames := names_of_mem sha256 participantId
        (mem_parryEndpoints.mpr ⟨first, row, last, rfl, hendpoint⟩)
      rw [hsame] at hnames
      obtain ⟨endpoint', hmem', hrow', hkind'⟩ := exists_of_names hnames
      have hendpoint' := parryEndpoint_of_mem (hdistinct.perm hreorder'.1.symm) hmem' hrow'
      obtain ⟨kind', hkindEq, rfl⟩ := Option.map_eq_some_iff.mp hendpoint'
      rw [hkindEq]
      unfold parryKind at hkind hkindEq
      cases hsignal : row.signal <;> rw [hsignal] at hkind hkindEq <;>
        simp only [Option.some.injEq, reduceCtorEq] at hkind hkindEq
      all_goals
        first
        | (split at hkind <;> split at hkindEq <;> subst hkind <;> subst hkindEq <;>
            first | rfl | exact nomatch hkind')
        | (subst hkind; subst hkindEq; rfl)

omit hsorted hdistinct hfree in
/-- Rows that classify an endpoint are in ascending order, each once. -/
theorem sortDedup_classificationRows {first last : List RawB05Event}
    (hdistinct : DistinctRows (first ++ row :: last)) (kind : ParryEndpointKind) :
    sortDedup (parryClassificationRows first.getLast? last.head? row kind) =
      parryClassificationRows first.getLast? last.head? row kind := by
  have hsingle : sortDedup [row.sourceDataRow] = [row.sourceDataRow] := rfl
  unfold parryClassificationRows
  cases parryRequiredNeighbor kind row.signal with
  | none => exact hsingle
  | some required =>
      simp only
      cases hfind : (first.getLast?.toList ++ last.head?.toList).find? (·.signal = required) with
      | none => exact hsingle
      | some neighbor =>
          have hneighbor : neighbor ∈ first ∨ neighbor ∈ last := by
            rcases List.mem_append.mp (List.mem_of_find?_eq_some hfind) with h | h
            · exact .inl (List.mem_of_getLast? (Option.mem_toList.mp h))
            · exact .inr (List.mem_of_head? (Option.mem_toList.mp h))
          have hne : row.sourceDataRow ≠ neighbor.sourceDataRow := by
            rw [DistinctRows, List.map_append, List.map_cons] at hdistinct
            obtain ⟨-, hrest, hcross⟩ := List.nodup_append.mp hdistinct
            intro heq
            rcases hneighbor with h | h
            · exact hcross _ (List.mem_map_of_mem h) _ List.mem_cons_self heq.symm
            · exact (List.nodup_cons.mp hrest).1 (List.mem_map.mpr ⟨neighbor, h, heq.symm⟩)
          have hperm := List.perm_insertionSort (· ≤ ·) [row.sourceDataRow, neighbor.sourceDataRow]
          simp only [sortDedup]
          rw [List.Pairwise.insertionSort_eq (List.pairwise_insertionSort _ _)]
          refine List.Nodup.dedup (hperm.nodup_iff.mpr ?_)
          simpa using hne

omit hsorted hdistinct hfree in
theorem parryInterval_rows {start stop : ParryEndpoint} {interval : ScreenIntervalEvidence}
    (h : parryInterval sha256 participantId start stop = some interval) :
    interval.startBoundarySourceRow = start.row.sourceDataRow ∧
      interval.stopBoundarySourceRow = some stop.row.sourceDataRow ∧
      interval.startSourceRows = sortDedup start.classificationRows ∧
      interval.stopSourceRows = sortDedup stop.classificationRows := by
  unfold parryInterval at h
  split at h
  · obtain rfl := Option.some.inj h
    exact ⟨rfl, rfl, rfl, rfl⟩
  · exact nomatch h

/-- A row that bounds an interval is classified by the same rows in every order. -/
theorem parryEndpoint_eq_of_orderFree (hrow : row ∈ rows)
    (hsurvives : row ∈ (survivors rows).map (·.row))
    {pair pair' : Option RawB05Event × Option RawB05Event}
    (hpair : pair ∈ neighbours RawB05Event.ns rows row)
    (hpair' : pair' ∈ neighbours RawB05Event.ns rows row) :
    parryEndpoint pair.1 pair.2 row = parryEndpoint pair'.1 pair'.2 row := by
  obtain ⟨endpoint, hendpoint, rfl⟩ := List.mem_map.mp hsurvives
  obtain ⟨before, start, stop, after, hsplit, hstart, hkind, hwhich⟩ :=
    exists_pair_of_mem (pairs_survivors (parryEndpoints none rows)) hendpoint
  obtain ⟨interval, hinterval⟩ : ∃ interval,
      parryInterval sha256 participantId start stop = some interval := by
    rw [parryInterval, if_pos ⟨hstart, hkind⟩]
    exact ⟨_, rfl⟩
  have hmem : interval ∈
      (parryPartition sha256 participantId (parryEndpoints none rows)).intervals :=
    (mem_parryIntervals _).mpr ⟨before, start, stop, after, hsplit, hinterval⟩
  obtain ⟨hstartRow, hstopRow, -, -⟩ := parryInterval_rows hinterval
  -- in every order the interval is read off the row where it stands
  have hread : ∃ named, ∀ first last,
      Reordering RawB05Event.ns rows (first ++ endpoint.row :: last) →
        ∃ e, parryEndpoint first.getLast? last.head? endpoint.row = some e ∧
          e.classificationRows = named := by
    have hpairOf : ∀ {first last},
        Reordering RawB05Event.ns rows (first ++ endpoint.row :: last) →
          ∃ start' ∈ parryEndpoints none (first ++ endpoint.row :: last),
            ∃ stop' ∈ parryEndpoints none (first ++ endpoint.row :: last),
              parryInterval sha256 participantId start' stop' = some interval := by
      intro first last hreorder
      rw [← hfree _ hreorder] at hmem
      obtain ⟨before', start', stop', after', hsplit', hinterval'⟩ :=
        (mem_parryIntervals _).mp hmem
      have hsurvivor : ∀ e ∈ [start', stop'],
          e ∈ parryEndpoints none (first ++ endpoint.row :: last) := fun e he =>
        mem_of_mem_kept (mem_of_mem_kept (by
          rw [hsplit']
          exact List.mem_append_right _ (List.mem_append_left _ he)))
      exact ⟨start', hsurvivor start' (by simp), stop', hsurvivor stop' (by simp), hinterval'⟩
    have hclass : ∀ {first last e},
        Reordering RawB05Event.ns rows (first ++ endpoint.row :: last) →
        e ∈ parryEndpoints none (first ++ endpoint.row :: last) →
        e.row.sourceDataRow = endpoint.row.sourceDataRow →
        parryEndpoint first.getLast? last.head? endpoint.row = some e ∧
          sortDedup e.classificationRows = e.classificationRows := by
      intro first last e hreorder he hsource
      have hrows := hdistinct.perm hreorder.1.symm
      have hparry := parryEndpoint_of_mem hrows he hsource
      refine ⟨hparry, ?_⟩
      obtain ⟨kind, -, rfl⟩ := Option.map_eq_some_iff.mp hparry
      exact sortDedup_classificationRows hrows kind
    rcases hwhich with rfl | rfl
    · refine ⟨interval.startSourceRows, fun first last hreorder => ?_⟩
      obtain ⟨start', hstart', stop', hstop', hinterval'⟩ := hpairOf hreorder
      obtain ⟨hstartRow', -, hstartRows', -⟩ := parryInterval_rows hinterval'
      obtain ⟨hparry, hsort⟩ := hclass hreorder hstart' (hstartRow'.symm.trans hstartRow)
      exact ⟨start', hparry, by rw [hstartRows', hsort]⟩
    · refine ⟨interval.stopSourceRows, fun first last hreorder => ?_⟩
      obtain ⟨start', hstart', stop', hstop', hinterval'⟩ := hpairOf hreorder
      obtain ⟨-, hstopRow', -, hstopRows'⟩ := parryInterval_rows hinterval'
      obtain ⟨hparry, hsort⟩ := hclass hreorder hstop'
        (Option.some.inj (hstopRow'.symm.trans hstopRow))
      exact ⟨stop', hparry, by rw [hstopRows', hsort]⟩
  obtain ⟨named, hread⟩ := hread
  obtain ⟨first, last, hreorder, hprevious, hnext⟩ :=
    exists_reordering_of_mem_neighbours hsorted hrow hpair
  obtain ⟨first', last', hreorder', hprevious', hnext'⟩ :=
    exists_reordering_of_mem_neighbours hsorted hrow hpair'
  have hkinds := parryKind_eq_of_orderFree hsorted hdistinct hfree hrow hpair hpair'
  rw [← hprevious, ← hnext, ← hprevious', ← hnext'] at hkinds ⊢
  obtain ⟨e, he, hnamed⟩ := hread first last hreorder
  obtain ⟨e', he', hnamed'⟩ := hread first' last' hreorder'
  rw [he, he']
  obtain ⟨kind, hkindEq, rfl⟩ := Option.map_eq_some_iff.mp he
  obtain ⟨kind', hkindEq', rfl⟩ := Option.map_eq_some_iff.mp he'
  rw [hkindEq, hkindEq', Option.some.injEq] at hkinds
  subst hkinds
  rw [Option.some.injEq, ParryEndpoint.mk.injEq]
  exact ⟨rfl, rfl, hnamed.trans hnamed'.symm⟩

variable (sha256 participantId) in
/-- When the order of tied rows does not matter, every tie is settled. -/
theorem parrySettled_of_orderFree : ParrySettled rows := by
  have hkinds : ∀ row ∈ rows, ∀ pair ∈ neighbours RawB05Event.ns rows row,
      ∀ pair' ∈ neighbours RawB05Event.ns rows row,
        parryKind pair.1 pair.2 row = parryKind pair'.1 pair'.2 row :=
    fun row hrow pair hpair pair' hpair' =>
      parryKind_eq_of_orderFree hsorted hdistinct hfree hrow hpair hpair'
  refine ⟨fun row hrow pair hpair pair' hpair' =>
    ⟨hkinds row hrow pair hpair pair' hpair', fun hsurvives =>
      parryEndpoint_eq_of_orderFree hsorted hdistinct hfree hrow hsurvives hpair hpair'⟩, ?_⟩
  have hself : Reordering RawB05Event.ns rows rows := ⟨.refl _, rfl⟩
  have hstrip := map_strip_parryEndpoints hsorted hdistinct hkinds hself
  have hkeys : (rows.filterMap (standsFor rows)).Pairwise fun a b => a.row.ns ≤ b.row.ns := by
    refine List.pairwise_filterMap.mpr (hsorted.imp fun {a b} hab e he e' he' => ?_)
    rw [row_of_standsFor he, row_of_standsFor he']
    exact hab
  have hflat := flatten_ties hkeys
  rw [hstrip]
  refine endpointsSettled_of_orderFree sha256 participantId
    (fun group hg => ne_nil_of_mem_ties hg) ?_ fun groups' hgroups => ?_
  · have hsources : sources (rows.filterMap (standsFor rows)) =
        sources (parryEndpoints none rows) := by
      rw [← hstrip, sources, List.map_map]
      rfl
    rw [hflat, hsources]
    exact (sources_parryEndpoints_sublist rows).nodup hdistinct
  · -- an order of the endpoints comes from an order of the rows
    have hreorder := reordering_of_forall₂ hkeys hgroups
    have hstands : ∀ e ∈ groups'.flatten, standsFor rows e.row = some e := by
      intro e he
      obtain ⟨row, -, hrow⟩ := List.mem_filterMap.mp (hreorder.1.mem_iff.mp he)
      rw [row_of_standsFor hrow, hrow]
    have hselect : (rows.filterMap (standsFor rows)).map (·.row) =
        rows.filter fun row => (standsFor rows row).isSome := by
      rw [List.map_filterMap, ← List.filterMap_eq_filter]
      refine List.filterMap_congr fun row _ => ?_
      cases h : standsFor rows row with
      | none => simp [Option.guard, h]
      | some e => simp [Option.guard, h, row_of_standsFor h]
    have hrows : Reordering RawB05Event.ns (rows.filter fun row => (standsFor rows row).isSome)
        (groups'.flatten.map (·.row)) := by
      rw [← hselect]
      refine ⟨hreorder.1.map _, ?_⟩
      rw [List.map_map, List.map_map]
      exact hreorder.2
    -- the rows that stand for no endpoint are put back in between
    obtain ⟨rows', hrows', hfilter⟩ := exists_reordering_of_filter hsorted _ hrows
    have hstrip' : (parryEndpoints none rows').map .strip = groups'.flatten := by
      have hdrop : rows'.filterMap (standsFor rows) =
          (rows'.filter fun row => (standsFor rows row).isSome).filterMap (standsFor rows) := by
        rw [List.filterMap_filter]
        refine List.filterMap_congr fun row _ => ?_
        cases h : standsFor rows row <;> simp
      rw [map_strip_parryEndpoints hsorted hdistinct hkinds hrows', hdrop, hfilter,
        List.filterMap_map]
      conv_rhs => rw [← List.filterMap_some (l := groups'.flatten)]
      exact List.filterMap_congr fun e he => hstands e he
    rw [hflat, ← hstrip, ← hstrip', outline_map_strip, outline_map_strip, hfree rows' hrows']

end

end Chronicle.Screens
