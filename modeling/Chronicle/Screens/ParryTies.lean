import Chronicle.Screens.ParryPasses

/-!
# Ties of endpoints

The order of tied endpoints does not matter to the passes when a tie has at most one endpoint of a
glance and one of a session, and the glance endpoint is at fault wherever it stands. In every other
tie the order matters.
-/

namespace Chronicle.Screens

open Chronicle.Library Chronicle.Library.Neighbours Chronicle.Library.Ties

/-- The order of a tie does not matter between the groups beside it. -/
def EndpointTie (before tie after : List ParryEndpoint) : Prop :=
  (tie.filter fun endpoint => endpoint.kind.intervalKind = .glance).length ≤ 1 ∧
    (tie.filter fun endpoint => endpoint.kind.intervalKind = .session).length ≤ 1 ∧
    ∀ endpoint ∈ tie,
      (endpoint.kind = .glanceStart → after ≠ [] ∧ ∀ other ∈ after, other.kind ≠ .glanceStop) ∧
        (endpoint.kind = .glanceStop → before ≠ [] ∧ ∀ other ∈ before, other.kind ≠ .glanceStart)

/-- Every tie of two or more endpoints is settled. -/
def EndpointsSettled : List ParryEndpoint → List (List ParryEndpoint) → Prop
  | _, [] => True
  | before, tie :: ties =>
      (2 ≤ tie.length → EndpointTie before tie (ties.headD [])) ∧ EndpointsSettled tie ties

/-- A neighbour that comes from the group, if it has any element. -/
def Among {α : Type} (group : List α) (neighbour : Option α) : Prop :=
  (group = [] ∧ neighbour = none) ∨ ∃ x ∈ group, neighbour = some x

section Among

variable {α : Type} {group : List α} {groups groups' : List (List α)} {x y : Option α}

theorem Among.eq (hlength : group.length < 2) (hx : Among group x) (hy : Among group y) : x = y := by
  match group, hlength with
  | [], _ =>
      rcases hx with ⟨-, rfl⟩ | ⟨a, ha, -⟩
      · rcases hy with ⟨-, rfl⟩ | ⟨b, hb, -⟩
        · rfl
        · exact absurd hb List.not_mem_nil
      · exact absurd ha List.not_mem_nil
  | [z], _ =>
      have honly : ∀ {w : Option α}, Among [z] w → w = some z := by
        rintro w (⟨h, -⟩ | ⟨a, ha, rfl⟩)
        · exact absurd h (List.cons_ne_nil z [])
        · rw [List.mem_singleton.mp ha]
      rw [honly hx, honly hy]

theorem Among.exists (h : group ≠ []) (hx : Among group x) : ∃ a ∈ group, x = some a :=
  hx.resolve_left fun hnil => h hnil.1

/-- What comes first of the groups is in the first group, whatever its order. -/
theorem among_head? (hne : ∀ group ∈ groups, group ≠ [])
    (hperm : List.Forall₂ List.Perm groups groups') :
    Among (groups.headD []) groups'.flatten.head? := by
  cases hperm with
  | nil => exact .inl ⟨rfl, rfl⟩
  | @cons group group' groups groups' hgroup _ =>
      cases group' with
      | nil => exact absurd hgroup.eq_nil (hne group List.mem_cons_self)
      | cons a rest => exact .inr ⟨a, hgroup.mem_iff.mpr List.mem_cons_self, rfl⟩

/-- A rearrangement of two elements. -/
theorem eq_or_swap_of_perm {a b : α} {l : List α} (h : [a, b].Perm l) : l = [a, b] ∨ l = [b, a] := by
  match l, h.length_eq with
  | [c, d], _ =>
      have hc : c ∈ [a, b] := h.mem_iff.mpr (by simp)
      rcases List.mem_cons.mp hc with rfl | hc
      · exact .inl (by rw [List.singleton_perm.mp (List.Perm.cons_inv h)])
      · rw [List.mem_singleton] at hc
        subst hc
        have hswap : [c, a].Perm [c, d] := (List.Perm.swap a c []).trans h
        exact .inr (by rw [List.singleton_perm.mp (List.Perm.cons_inv hswap)])

end Among

/-! ## Settled ties do not matter -/

section Settled

variable {before tie after : List ParryEndpoint} {previous previous' next next' : Option ParryEndpoint}
variable {endpoint a b : ParryEndpoint} {β : Type}

/-- An endpoint alone at its time has the same code in every order of the groups beside it. -/
theorem code_glance_eq (hprevious : Among before previous) (hprevious' : Among before previous')
    (hnext : Among after next) (hnext' : Among after next')
    (hbefore : 2 ≤ before.length → ∀ other ∈ before, other.kind = .glanceStart →
      endpoint.kind ≠ .glanceStop)
    (hafter : 2 ≤ after.length → ∀ other ∈ after, other.kind = .glanceStop →
      endpoint.kind ≠ .glanceStart) :
    glancePass.code previous next endpoint = glancePass.code previous' next' endpoint := by
  by_cases hstart : endpoint.kind = glancePass.start
  · by_cases hlength : after.length < 2
    · rw [Among.eq hlength hnext hnext']
      simp only [ParryPass.code, hstart, if_true]
    · have hfault : ∀ {previous next}, Among after next →
          glancePass.code previous next endpoint = some glancePass.startNextNotStop := by
        intro previous next hnext
        obtain ⟨other, hother, rfl⟩ := hnext.exists fun hnil => by simp [hnil] at hlength
        exact code_start_other hstart fun hstop =>
          hafter (not_lt.mp hlength) other hother hstop hstart
      rw [hfault hnext, hfault hnext']
  · by_cases hstop : endpoint.kind = glancePass.stop
    · by_cases hlength : before.length < 2
      · rw [Among.eq hlength hprevious hprevious']
        simp only [ParryPass.code, hstart, if_false]
      · have hfault : ∀ {previous next}, Among before previous →
            glancePass.code previous next endpoint = some glancePass.stopPreviousNotStart := by
          intro previous next hprevious
          obtain ⟨other, hother, rfl⟩ := hprevious.exists fun hnil => by simp [hnil] at hlength
          exact code_stop_other glancePass_sound hstop fun hother' =>
            hbefore (not_lt.mp hlength) other hother hother' hstop
        rw [hfault hprevious, hfault hprevious']
    · rw [code_other hstart hstop, code_other hstart hstop]

/-- The code of an endpoint of a settled tie. -/
def settledCode (endpoint : ParryEndpoint) : Option ScreenConstructionIssueCode :=
  match endpoint.kind with
  | .glanceStart => some .unmatchedGlanceStartNextNotStop
  | .glanceStop => some .unmatchedGlanceStopPreviousNotStart
  | _ => none

theorem settledCode_session (h : endpoint.kind.intervalKind = .session) :
    settledCode endpoint = none := by
  unfold settledCode
  cases hkind : endpoint.kind <;> simp_all [ParryEndpointKind.intervalKind]

/-- The code of the first endpoint of a settled tie of two. -/
theorem code_first_of_tie (h : EndpointTie before tie after) (ha : a ∈ tie)
    (hkind : a.kind.intervalKind ≠ b.kind.intervalKind) (hprevious : Among before previous) :
    glancePass.code previous (some b) a = settledCode a := by
  cases hcase : a.kind with
  | glanceStart =>
      rw [settledCode, hcase]
      exact code_start_other hcase fun hb => hkind (by rw [hcase, hb]; rfl)
  | glanceStop =>
      obtain ⟨hne, hother⟩ := (h.2.2 a ha).2 hcase
      obtain ⟨other, hmem, rfl⟩ := hprevious.exists hne
      rw [settledCode, hcase]
      exact code_stop_other glancePass_sound hcase (hother other hmem)
  | sessionStart | sessionStop =>
      rw [settledCode, hcase]
      exact code_other (by rw [hcase]; decide) (by rw [hcase]; decide)

/-- The code of the second endpoint of a settled tie of two. -/
theorem code_second_of_tie (h : EndpointTie before tie after) (hb : b ∈ tie)
    (hkind : a.kind.intervalKind ≠ b.kind.intervalKind) (hnext : Among after next) :
    glancePass.code (some a) next b = settledCode b := by
  cases hcase : b.kind with
  | glanceStart =>
      obtain ⟨hne, hother⟩ := (h.2.2 b hb).1 hcase
      obtain ⟨other, hmem, rfl⟩ := hnext.exists hne
      rw [settledCode, hcase]
      exact code_start_other hcase (hother other hmem)
  | glanceStop =>
      rw [settledCode, hcase]
      exact code_stop_other glancePass_sound hcase fun ha => hkind (by rw [hcase, ha]; rfl)
  | sessionStart | sessionStop =>
      rw [settledCode, hcase]
      exact code_other (by rw [hcase]; decide) (by rw [hcase]; decide)

/-- A settled tie of two or more is one endpoint of a glance and one of a session. -/
theorem EndpointTie.exists_pair (h : EndpointTie before tie after) (hlength : 2 ≤ tie.length) :
    ∃ a b, tie = [a, b] ∧ a.kind.intervalKind ≠ b.kind.intervalKind := by
  obtain ⟨hglance, hsession, -⟩ := h
  have hsum : ∀ l : List ParryEndpoint,
      (l.filter fun endpoint => endpoint.kind.intervalKind = .glance).length +
        (l.filter fun endpoint => endpoint.kind.intervalKind = .session).length = l.length := by
    intro l
    induction l with
    | nil => rfl
    | cons endpoint l ih =>
        cases hkind : endpoint.kind.intervalKind <;>
          simp only [List.filter_cons, hkind, decide_true, decide_false, if_true, reduceCtorEq,
            Bool.false_eq_true, if_false, List.length_cons] <;> omega
  have htwo : tie.length = 2 := by
    have := hsum tie
    omega
  match tie, htwo with
  | [a, b], _ =>
      refine ⟨a, b, rfl, fun hkind => ?_⟩
      cases hb : b.kind.intervalKind with
      | glance => simp [hkind, hb] at hglance
      | session => simp [hkind, hb] at hsession

/-- What is read of an endpoint and its code. -/
def readCode (f : ParryEndpoint → Option ScreenConstructionIssueCode → Option β)
    (context : Option ParryEndpoint × ParryEndpoint × Option ParryEndpoint) : Option β :=
  f context.2.1 (glancePass.code context.1 context.2.2 context.2.1)

variable {f : ParryEndpoint → Option ScreenConstructionIssueCode → Option β}

/-- What is read of a settled tie of two does not depend on its order. -/
theorem filterMap_pair (hf : (∀ endpoint code, f endpoint (some code) = none) ∨
      ∀ endpoint, f endpoint none = none)
    (hkind : a.kind.intervalKind ≠ b.kind.intervalKind) (rest : List β) :
    (f a (settledCode a)).toList ++ ((f b (settledCode b)).toList ++ rest) =
      (f b (settledCode b)).toList ++ ((f a (settledCode a)).toList ++ rest) := by
  have hone : f a (settledCode a) = none ∨ f b (settledCode b) = none := by
    have hcode : ∀ {endpoint : ParryEndpoint}, endpoint.kind.intervalKind = .glance →
        ∃ code, settledCode endpoint = some code := by
      intro endpoint h
      unfold settledCode
      cases hkind : endpoint.kind <;> simp_all [ParryEndpointKind.intervalKind]
    cases ha : a.kind.intervalKind with
    | glance =>
        have hb : b.kind.intervalKind = .session := by
          cases hb : b.kind.intervalKind with
          | glance => exact absurd (ha.trans hb.symm) hkind
          | session => rfl
        obtain ⟨code, hcode⟩ := hcode ha
        rw [hcode, settledCode_session hb]
        exact hf.imp (fun h => h a code) fun h => h b
    | session =>
        have hb : b.kind.intervalKind = .glance := by
          cases hb : b.kind.intervalKind with
          | glance => rfl
          | session => exact absurd (ha.trans hb.symm) hkind
        obtain ⟨code, hcode⟩ := hcode hb
        rw [hcode, settledCode_session ha]
        exact hf.symm.imp (fun h => h a) fun h => h b code
  rcases hone with h | h <;> rw [h] <;> rfl

theorem filterMap_cons_eq (context : Option ParryEndpoint × ParryEndpoint × Option ParryEndpoint)
    (l : List (Option ParryEndpoint × ParryEndpoint × Option ParryEndpoint)) :
    (context :: l).filterMap (readCode f) =
      (f context.2.1 (glancePass.code context.1 context.2.2 context.2.1)).toList ++
        l.filterMap (readCode f) := by
  rw [List.filterMap_cons]
  unfold readCode
  split <;> simp_all

theorem filterMap_contexts_cons (previous : Option ParryEndpoint) (a : ParryEndpoint)
    (rest : List ParryEndpoint) :
    (contexts previous (a :: rest) none).filterMap (readCode f) =
      (f a (glancePass.code previous rest.head? a)).toList ++
        (contexts (some a) rest none).filterMap (readCode f) := by
  rw [contexts, filterMap_cons_eq, Option.or_none]

theorem filterMap_contexts_pair (previous : Option ParryEndpoint) (a b : ParryEndpoint)
    (rest : List ParryEndpoint) :
    (contexts previous ([a, b] ++ rest) none).filterMap (readCode f) =
      (f a (glancePass.code previous (some b) a)).toList ++
        ((f b (glancePass.code (some a) rest.head? b)).toList ++
          (contexts (some b) rest none).filterMap (readCode f)) := by
  rw [List.cons_append, filterMap_contexts_cons, List.singleton_append, filterMap_contexts_cons,
    List.head?_cons]

/-- What the pass over the glances keeps and reports does not depend on the order of settled
ties. -/
theorem filterMap_readCode_eq (hf : (∀ endpoint code, f endpoint (some code) = none) ∨
      ∀ endpoint, f endpoint none = none) {groups groups' : List (List ParryEndpoint)}
    (hne : ∀ group ∈ groups, group ≠ []) (hsettled : EndpointsSettled before groups)
    (hperm : List.Forall₂ List.Perm groups groups')
    (hbefore : 2 ≤ before.length → ∀ other ∈ before, other.kind = .glanceStart →
      ∀ endpoint ∈ groups.headD [], endpoint.kind ≠ .glanceStop)
    (hprevious : Among before previous) (hprevious' : Among before previous') :
    (contexts previous' groups'.flatten none).filterMap (readCode f) =
      (contexts previous groups.flatten none).filterMap (readCode f) := by
  induction hperm generalizing before previous previous' with
  | nil => rfl
  | @cons group group' groups groups' hgroup hgroups ih =>
      obtain ⟨hgroupNe, hrestNe⟩ := List.forall_mem_cons.mp hne
      obtain ⟨htie, hrest⟩ := hsettled
      have hsame : List.Forall₂ List.Perm groups groups := List.forall₂_same.mpr fun _ _ => .refl _
      have hnext := among_head? hrestNe hsame
      have hnext' := among_head? hrestNe hgroups
      rw [List.flatten_cons, List.flatten_cons]
      by_cases hlength : 2 ≤ group.length
      · have htie := htie hlength
        -- a settled tie of two or more is a pair of one kind, which reads alike both ways
        obtain ⟨a, b, rfl, hkind⟩ := htie.exists_pair hlength
        have hrestBefore : 2 ≤ [a, b].length → ∀ other ∈ [a, b], other.kind = .glanceStart →
            ∀ endpoint ∈ groups.headD [], endpoint.kind ≠ .glanceStop :=
          fun _ other hother hstart => ((htie.2.2 other hother).1 hstart).2
        have hb : Among [a, b] (some b) := .inr ⟨b, by simp, rfl⟩
        have ha : Among [a, b] (some a) := .inr ⟨a, by simp, rfl⟩
        have haMem : a ∈ [a, b] := by simp
        have hbMem : b ∈ [a, b] := by simp
        rw [filterMap_contexts_pair, code_first_of_tie htie haMem hkind hprevious,
          code_second_of_tie htie hbMem hkind hnext]
        rcases eq_or_swap_of_perm hgroup with rfl | rfl
        · rw [filterMap_contexts_pair, code_first_of_tie htie haMem hkind hprevious',
            code_second_of_tie htie hbMem hkind hnext', ih hrestNe hrest hrestBefore hb hb]
        · rw [filterMap_contexts_pair, code_first_of_tie htie hbMem hkind.symm hprevious',
            code_second_of_tie htie haMem hkind.symm hnext', ih hrestNe hrest hrestBefore hb ha,
            filterMap_pair hf hkind]
      · obtain ⟨endpoint, rfl⟩ : ∃ endpoint, group = [endpoint] := by
          refine List.length_eq_one_iff.mp ?_
          have := List.length_pos_iff.mpr hgroupNe
          omega
        have hself : Among [endpoint] (some endpoint) := .inr ⟨endpoint, by simp, rfl⟩
        -- a lone endpoint next to a tie is never half of a pair with it
        have hafter : 2 ≤ (groups.headD []).length → ∀ other ∈ groups.headD [],
            other.kind = .glanceStop → endpoint.kind ≠ .glanceStart := by
          intro hlength other hother hstop hstart
          cases groups with
          | nil => exact absurd hother List.not_mem_nil
          | cons next groups =>
              exact ((hrest.1 hlength).2.2 other hother).2 hstop |>.2 endpoint (by simp) hstart
        have hcode := code_glance_eq hprevious' hprevious hnext' hnext
          (fun hlength other hother hstart => hbefore hlength other hother hstart endpoint (by simp))
          hafter
        rw [← List.singleton_perm.mp hgroup, List.singleton_append, List.singleton_append,
          filterMap_contexts_cons, filterMap_contexts_cons, hcode,
          ih hrestNe hrest (fun hlength => by simp at hlength) hself hself]

theorem kept_glance_eq {groups groups' : List (List ParryEndpoint)}
    (hne : ∀ group ∈ groups, group ≠ []) (hsettled : EndpointsSettled [] groups)
    (hperm : List.Forall₂ List.Perm groups groups') :
    glancePass.kept groups'.flatten = glancePass.kept groups.flatten := by
  rw [kept_eq, kept_eq]
  exact filterMap_readCode_eq
    (f := fun endpoint code => if code.isNone then some endpoint else none)
    (.inl fun _ _ => rfl) hne hsettled hperm (fun h => by simp at h) (.inl ⟨rfl, rfl⟩)
    (.inl ⟨rfl, rfl⟩)

theorem issues_glance_eq (participantId : String) {groups groups' : List (List ParryEndpoint)}
    (hne : ∀ group ∈ groups, group ≠ []) (hsettled : EndpointsSettled [] groups)
    (hperm : List.Forall₂ List.Perm groups groups') :
    glancePass.issues participantId groups'.flatten =
      glancePass.issues participantId groups.flatten := by
  rw [issues_eq, issues_eq]
  exact filterMap_readCode_eq
    (f := fun endpoint code => code.map (issue participantId endpoint.row.sourceDataRow))
    (.inr fun _ => rfl) hne hsettled hperm (fun h => by simp at h) (.inl ⟨rfl, rfl⟩)
    (.inl ⟨rfl, rfl⟩)

end Settled

/-! ## Ties that matter -/

/-- Two elements of a list without repetitions cannot follow each other in both orders. -/
theorem not_sublist_of_swap {α : Type} [DecidableEq α] {first last X : List α} {a b : α}
    (hnodup : (first ++ a :: b :: last).Nodup) (ha : a ∈ X) (hb : b ∈ X)
    (h : X.Sublist (first ++ a :: b :: last)) : ¬ X.Sublist (first ++ b :: a :: last) := by
  intro h'
  have hne : a ≠ b := by
    rintro rfl
    have := (List.nodup_append.mp hnodup).2.1
    simp at this
  have hpick : ∀ {x y : α}, (first ++ x :: y :: last).Nodup → ((x = a ∧ y = b) ∨ (x = b ∧ y = a)) →
      X.Sublist (first ++ x :: y :: last) →
      X.filter (fun z => z = a ∨ z = b) = [x, y] := by
    intro x y hxy hcase hsub
    have hothers : ∀ l : List α, (∀ z ∈ l, z ≠ a ∧ z ≠ b) →
        l.filter (fun z => z = a ∨ z = b) = [] := by
      intro l hl
      refine List.filter_eq_nil_iff.mpr fun z hz => ?_
      simp [hl z hz]
    obtain ⟨-, htail, hdisjoint⟩ := List.nodup_append.mp hxy
    obtain ⟨hx, hy⟩ := List.nodup_cons.mp htail
    have hlist : (first ++ x :: y :: last).filter (fun z => z = a ∨ z = b) = [x, y] := by
      rw [List.filter_append, hothers first, List.nil_append, List.filter_cons_of_pos,
        List.filter_cons_of_pos, hothers last]
      · intro z hz
        have hzx : z ≠ x := fun h => hx (h ▸ List.mem_cons_of_mem y hz)
        have hzy : z ≠ y := fun h => (List.nodup_cons.mp hy).1 (h ▸ hz)
        rcases hcase with ⟨rfl, rfl⟩ | ⟨rfl, rfl⟩
        · exact ⟨hzx, hzy⟩
        · exact ⟨hzy, hzx⟩
      · rcases hcase with ⟨rfl, rfl⟩ | ⟨rfl, rfl⟩ <;> simp
      · rcases hcase with ⟨rfl, rfl⟩ | ⟨rfl, rfl⟩ <;> simp
      · intro z hz
        have hzx : z ≠ x := fun h => hdisjoint z hz x (by simp) h
        have hzy : z ≠ y := fun h => hdisjoint z hz y (by simp) h
        rcases hcase with ⟨rfl, rfl⟩ | ⟨rfl, rfl⟩
        · exact ⟨hzx, hzy⟩
        · exact ⟨hzy, hzx⟩
    have hsub := hsub.filter fun z => z = a ∨ z = b
    rw [hlist] at hsub
    refine hsub.eq_of_length_le ?_
    have haMem : a ∈ X.filter fun z => z = a ∨ z = b := List.mem_filter.mpr ⟨ha, by simp⟩
    have hbMem : b ∈ X.filter fun z => z = a ∨ z = b := List.mem_filter.mpr ⟨hb, by simp⟩
    generalize X.filter (fun z => z = a ∨ z = b) = picked at haMem hbMem ⊢
    match picked with
    | [] => exact absurd haMem List.not_mem_nil
    | [z] =>
        rw [List.mem_singleton] at haMem hbMem
        exact absurd (haMem.trans hbMem.symm) hne
    | _ :: _ :: _ => simp
  have hswap : (first ++ b :: a :: last).Nodup :=
    ((List.Perm.swap b a last).append_left first).nodup_iff.mp hnodup
  have heq := (hpick hnodup (.inl ⟨rfl, rfl⟩) h).symm.trans (hpick hswap (.inr ⟨rfl, rfl⟩) h')
  exact hne (List.cons.inj heq).1

section Decisive

variable {sha256 : List UInt8 → List UInt8} {participantId : String}
variable {pass : ParryPass} {kind : ScreenIntervalKind} {l first last : List ParryEndpoint}
variable {x y endpoint : ParryEndpoint}

/-- The source rows of endpoints. -/
def sources (endpoints : List ParryEndpoint) : List Nat :=
  endpoints.map fun endpoint => endpoint.row.sourceDataRow

theorem sources_issues_sublist (pass : ParryPass) (l : List ParryEndpoint) :
    ((pass.issues participantId l).map (·.sourceDataRow)).Sublist (sources l) := by
  have hctx : ∀ contextList : List (Option ParryEndpoint × ParryEndpoint × Option ParryEndpoint),
      ((contextList.filterMap (pass.reports participantId)).map (·.sourceDataRow)).Sublist
        (contextList.map fun context => context.2.1.row.sourceDataRow) := by
    intro contextList
    induction contextList with
    | nil => exact .slnil
    | cons context contextList ih =>
        cases hreports : pass.reports participantId context with
        | none => rw [List.filterMap_cons_none hreports]; exact ih.cons _
        | some reported =>
            have hrow : reported.sourceDataRow = context.2.1.row.sourceDataRow := by
              unfold ParryPass.reports at hreports
              obtain ⟨code, -, rfl⟩ := Option.map_eq_some_iff.mp hreports
              rfl
            rw [List.filterMap_cons_some hreports, List.map_cons, List.map_cons, hrow]
            exact ih.cons_cons _
  have hall := hctx (contexts none l none)
  have hsources : (contexts none l none).map (fun context => context.2.1.row.sourceDataRow) =
      sources l := by
    conv_rhs => rw [sources, ← map_contexts none l none, List.map_map]
    rfl
  rwa [hsources, ← issues_eq] at hall

/-- The pass over the endpoints of a kind. -/
def passOf : ScreenIntervalKind → ParryPass
  | .glance => glancePass
  | .session => sessionPass

/-- What the pass is run on. -/
def passInput : ScreenIntervalKind → List ParryEndpoint → List ParryEndpoint
  | .glance, l => l
  | .session, l => glancePass.kept l

theorem passOf_sound (kind : ScreenIntervalKind) : (passOf kind).Sound := by
  cases kind with
  | glance => exact glancePass_sound
  | session => exact sessionPass_sound

theorem passOf_kind (kind : ScreenIntervalKind) : (passOf kind).start.intervalKind = kind := by
  cases kind <;> rfl

theorem codeKind_of_mem_issues (hpass : pass.Sound) {reported : ScreenConstructionIssue}
    (h : reported ∈ pass.issues participantId l) :
    codeKind reported.code = some pass.start.intervalKind := by
  obtain ⟨_, _, _, _, -, hcode, rfl⟩ := exists_of_mem_issues h
  exact (kind_of_code hpass hcode).2

variable (sha256 participantId) in
/-- The issues about a kind are those of its pass. -/
theorem filter_issues (kind : ScreenIntervalKind) (l : List ParryEndpoint) :
    (parryPartition sha256 participantId l).issues.filter (fun i => codeKind i.code = some kind) =
      (passOf kind).issues participantId (passInput kind l) := by
  have hself : ∀ {pass : ParryPass} {l}, pass.Sound → pass.start.intervalKind = kind →
      (pass.issues participantId l).filter (fun i => codeKind i.code = some kind) =
        pass.issues participantId l := fun hpass hkind =>
    List.filter_eq_self.mpr fun i hi => by simp [codeKind_of_mem_issues hpass hi, hkind]
  have hother : ∀ {pass : ParryPass} {l}, pass.Sound → pass.start.intervalKind ≠ kind →
      (pass.issues participantId l).filter (fun i => codeKind i.code = some kind) = [] :=
    fun hpass hkind =>
      List.filter_eq_nil_iff.mpr fun i hi => by simp [codeKind_of_mem_issues hpass hi, hkind]
  rw [parryPartition, List.filter_append]
  cases kind with
  | glance =>
      rw [hself glancePass_sound rfl, hother sessionPass_sound (by decide), List.append_nil]
      rfl
  | session =>
      rw [hother glancePass_sound (by decide), hself sessionPass_sound rfl]
      rfl

/-- Two neighbours that the pass keeps are neighbours again. -/
theorem kept_append_cons_cons (hx : pass.code first.getLast? (some y) x = none)
    (hy : pass.code (some x) last.head? y = none) :
    ∃ first' last', pass.kept (first ++ x :: y :: last) = first' ++ x :: y :: last' := by
  refine ⟨(contexts none first (some x)).filterMap pass.keeps,
    (contexts (some y) last none).filterMap pass.keeps, ?_⟩
  rw [kept_eq, contexts_append_cons_cons, List.filterMap_append, Option.or_none, Option.or_none,
    List.filterMap_cons_some (keeps_eq_some hx), List.filterMap_cons_some (keeps_eq_some hy)]

theorem passInput_append_cons_cons (hx : x.kind.intervalKind = kind)
    (hy : y.kind.intervalKind = kind) :
    ∃ first' last', passInput kind (first ++ x :: y :: last) = first' ++ x :: y :: last' := by
  cases kind with
  | glance => exact ⟨first, last, rfl⟩
  | session =>
      exact kept_append_cons_cons
        (code_of_kind_ne glancePass_sound (by rw [hx]; decide))
        (code_of_kind_ne glancePass_sound (by rw [hy]; decide))

theorem mem_issues_append_cons {code : ScreenConstructionIssueCode}
    (h : pass.code first.getLast? last.head? endpoint = some code) :
    issue participantId endpoint.row.sourceDataRow code ∈
      pass.issues participantId (first ++ endpoint :: last) := by
  rw [issues_eq]
  refine List.mem_filterMap.mpr ⟨_, mem_contexts_append_cons none first endpoint last none, ?_⟩
  rw [ParryPass.reports, Option.or_none, Option.or_none, h]
  rfl

variable (participantId) in
/-- In a list without repeated rows a place has one issue of a pass at most. -/
theorem code_of_mem_issues {code : ScreenConstructionIssueCode}
    (hdistinct : (sources (first ++ endpoint :: last)).Nodup)
    (h : issue participantId endpoint.row.sourceDataRow code ∈
      pass.issues participantId (first ++ endpoint :: last)) :
    pass.code first.getLast? last.head? endpoint = some code := by
  obtain ⟨first', endpoint', last', code', hsplit, hcode, hissue⟩ := exists_of_mem_issues h
  have hsource : endpoint'.row.sourceDataRow = endpoint.row.sourceDataRow :=
    (congrArg ScreenConstructionIssue.sourceDataRow hissue).symm
  obtain rfl : code = code' := congrArg ScreenConstructionIssue.code hissue
  have hlength : first.length = first'.length := by
    have hplace : ∀ {first' endpoint' last'},
        first ++ endpoint :: last = first' ++ endpoint' :: last' →
        (sources (first ++ endpoint :: last))[first'.length]? =
          some endpoint'.row.sourceDataRow := by
      intro first' endpoint' last' h
      rw [h, sources, List.getElem?_map, List.getElem?_append_right le_rfl]
      simp
    have hboth := (hplace hsplit).trans (hsource ▸ (hplace rfl).symm)
    refine ((List.getElem?_inj ?_ hdistinct).mp hboth).symm
    have hlength := congrArg List.length hsplit
    rw [List.length_append, List.length_append, List.length_cons, List.length_cons] at hlength
    rw [sources, List.length_map, List.length_append, List.length_cons]
    omega
  obtain ⟨rfl, hrest⟩ := List.append_inj hsplit hlength
  obtain ⟨rfl, rfl⟩ := List.cons.inj hrest
  exact hcode

variable (sha256 participantId first last) in
/-- A start right before a stop of its kind is an interval. -/
theorem mem_outline_of_start_stop (hx : x.kind = (passOf kind).start)
    (hy : y.kind = (passOf kind).stop) :
    (kind, x.row.sourceDataRow, some y.row.sourceDataRow) ∈
      (parryPartition sha256 participantId (first ++ x :: y :: last)).outline.1 := by
  have hxKind : x.kind.intervalKind = kind := by rw [hx, passOf_kind]
  have hyKind : y.kind.intervalKind = kind := by rw [hy, ← (passOf_sound kind).kind, passOf_kind]
  have hkept : ∀ {pass : ParryPass}, pass = glancePass ∨ pass = sessionPass → ∀ first last,
      ∃ first' last', pass.kept (first ++ x :: y :: last) = first' ++ x :: y :: last' := by
    intro pass hpass first last
    have hcodes : pass.code first.getLast? (some y) x = none ∧
        pass.code (some x) last.head? y = none := by
      by_cases hsame : pass = passOf kind
      · subst hsame
        exact ⟨code_start_stop hx hy, code_stop_start (passOf_sound kind) hy hx⟩
      · have hsound : pass.Sound := by
          rcases hpass with rfl | rfl
          · exact glancePass_sound
          · exact sessionPass_sound
        have hne : kind ≠ pass.start.intervalKind := by
          rintro rfl
          rcases hpass with rfl | rfl <;> exact hsame rfl
        exact ⟨code_of_kind_ne hsound (hxKind ▸ hne), code_of_kind_ne hsound (hyKind ▸ hne)⟩
    exact kept_append_cons_cons hcodes.1 hcodes.2
  obtain ⟨first₁, last₁, hglance⟩ := hkept (.inl rfl) first last
  obtain ⟨first₂, last₂, hsession⟩ := hkept (.inr rfl) first₁ last₁
  obtain ⟨interval, hinterval⟩ : ∃ interval,
      parryInterval sha256 participantId x y = some interval := by
    rw [parryInterval, if_pos ⟨by rw [hx]; exact (passOf_sound kind).start, hxKind.trans hyKind.symm⟩]
    exact ⟨_, rfl⟩
  have hmem : interval ∈
      (parryPartition sha256 participantId (first ++ x :: y :: last)).intervals := by
    refine (mem_parryIntervals _).mpr ⟨first₂, x, y, last₂, ?_, hinterval⟩
    rw [hglance, hsession]
  refine List.mem_map.mpr ⟨interval, hmem, ?_⟩
  rw [parryInterval_outline hinterval, hxKind]

/-- The boundaries of an interval follow each other in the list. -/
theorem sublist_of_mem_outline {a b : Nat}
    (h : (kind, a, some b) ∈ (parryPartition sha256 participantId l).outline.1) :
    [a, b].Sublist (sources l) := by
  obtain ⟨interval, hinterval, houtline⟩ := List.mem_map.mp h
  obtain ⟨first, start, stop, last, hsplit, hinterval⟩ := (mem_parryIntervals _).mp hinterval
  rw [parryInterval_outline hinterval] at houtline
  simp only [Prod.mk.injEq, Option.some.injEq] at houtline
  obtain ⟨-, rfl, rfl⟩ := houtline
  have hsub : [start, stop].Sublist (sessionPass.kept (glancePass.kept l)) := by
    rw [hsplit]
    exact (List.sublist_append_left [start, stop] last).trans (List.sublist_append_right _ _)
  exact (hsub.trans ((kept_sublist _ _).trans (kept_sublist _ _))).map
    fun endpoint => endpoint.row.sourceDataRow

variable (sha256 participantId first last) in
/-- Of two neighbours that can be exchanged unnoticed one is of a glance and one of a session. -/
theorem kinds_ne_of_exchange (hdistinct : (sources (first ++ x :: y :: last)).Nodup)
    (hsame : (parryPartition sha256 participantId (first ++ y :: x :: last)).outline =
      (parryPartition sha256 participantId (first ++ x :: y :: last)).outline) :
    x.kind.intervalKind ≠ y.kind.intervalKind := by
  intro hkinds
  have hsources : ∀ a b, sources (first ++ a :: b :: last) = sources first ++
      a.row.sourceDataRow :: b.row.sourceDataRow :: sources last := by
    intro a b
    simp [sources]
  have hswap : (sources (first ++ y :: x :: last)).Nodup := by
    rw [hsources] at hdistinct ⊢
    exact ((List.Perm.swap _ _ _).append_left _).nodup_iff.mp hdistinct
  have hxKind : x.kind = (passOf x.kind.intervalKind).start ∨
      x.kind = (passOf x.kind.intervalKind).stop := by
    cases x.kind <;> decide
  have hyKind : y.kind = (passOf x.kind.intervalKind).start ∨
      y.kind = (passOf x.kind.intervalKind).stop := by
    rw [hkinds]
    cases y.kind <;> decide
  -- an interval between the two would need them in its own order
  have hpair : ∀ {a b : ParryEndpoint}, (sources (first ++ b :: a :: last)).Nodup →
      a.kind = (passOf x.kind.intervalKind).start → b.kind = (passOf x.kind.intervalKind).stop →
      (parryPartition sha256 participantId (first ++ b :: a :: last)).outline =
        (parryPartition sha256 participantId (first ++ a :: b :: last)).outline → False := by
    intro a b hnodup ha hb hsame
    have hmem := mem_outline_of_start_stop sha256 participantId first last ha hb
    have hsub := sublist_of_mem_outline hmem
    rw [← hsame] at hmem
    have hsub' := sublist_of_mem_outline hmem
    rw [hsources] at hsub hsub' hnodup
    exact not_sublist_of_swap hnodup (by simp) (by simp) hsub' hsub
  -- issues about the two would stand in the order of the two
  have hlists : (passOf x.kind.intervalKind).issues participantId
      (passInput x.kind.intervalKind (first ++ y :: x :: last)) =
      (passOf x.kind.intervalKind).issues participantId
        (passInput x.kind.intervalKind (first ++ x :: y :: last)) := by
    rw [← filter_issues sha256, ← filter_issues sha256]
    exact congrArg (List.filter fun i => codeKind i.code = some x.kind.intervalKind)
      (congrArg Prod.snd hsame)
  have hissues : ∀ codeX codeY : ScreenConstructionIssueCode,
      issue participantId x.row.sourceDataRow codeX ∈ (passOf x.kind.intervalKind).issues
        participantId (passInput x.kind.intervalKind (first ++ x :: y :: last)) →
      issue participantId y.row.sourceDataRow codeY ∈ (passOf x.kind.intervalKind).issues
        participantId (passInput x.kind.intervalKind (first ++ x :: y :: last)) → False := by
    intro codeX codeY hx hy
    have hsublist : ∀ l, (((passOf x.kind.intervalKind).issues participantId
        (passInput x.kind.intervalKind l)).map (·.sourceDataRow)).Sublist (sources l) := by
      intro l
      refine (sources_issues_sublist _ _).trans (List.Sublist.map _ ?_)
      cases x.kind.intervalKind with
      | glance => exact List.Sublist.refl l
      | session => exact kept_sublist glancePass l
    have hfirst := hsublist (first ++ x :: y :: last)
    have hsecond := hsublist (first ++ y :: x :: last)
    rw [hlists] at hsecond
    rw [hsources] at hdistinct hfirst hsecond
    exact not_sublist_of_swap hdistinct (List.mem_map.mpr ⟨_, hx, rfl⟩)
      (List.mem_map.mpr ⟨_, hy, rfl⟩) hfirst hsecond
  have hadjacent : ∀ {a b : ParryEndpoint}, a.kind.intervalKind = x.kind.intervalKind →
      b.kind.intervalKind = x.kind.intervalKind → ∃ first' last',
        passInput x.kind.intervalKind (first ++ a :: b :: last) = first' ++ a :: b :: last' :=
    fun ha hb => passInput_append_cons_cons ha hb
  obtain ⟨first₁, last₁, hxy⟩ := hadjacent (a := x) (b := y) rfl hkinds.symm
  obtain ⟨first₂, last₂, hyx⟩ := hadjacent (a := y) (b := x) hkinds.symm rfl
  have hsound := passOf_sound x.kind.intervalKind
  have hstop : ∀ {a : ParryEndpoint}, a.kind = (passOf x.kind.intervalKind).start →
      a.kind ≠ (passOf x.kind.intervalKind).stop := fun ha hstop => hsound.ne (hstop.symm.trans ha)
  have hstart : ∀ {a : ParryEndpoint}, a.kind = (passOf x.kind.intervalKind).stop →
      a.kind ≠ (passOf x.kind.intervalKind).start := fun ha hstart => hsound.ne (ha.symm.trans hstart)
  have hshift : ∀ (before : List ParryEndpoint) (a b : ParryEndpoint) (after : List ParryEndpoint),
      before ++ a :: b :: after = (before ++ [a]) ++ b :: after := by simp
  have hlast : ∀ (before : List ParryEndpoint) (a : ParryEndpoint),
      (before ++ [a]).getLast? = some a := by simp
  rcases hxKind with hx | hx <;> rcases hyKind with hy | hy
  · refine hissues (passOf x.kind.intervalKind).startNextNotStop
      (passOf x.kind.intervalKind).startNextNotStop ?_ ?_
    · rw [hxy]
      exact mem_issues_append_cons (code_start_other hx (hstop hy))
    · rw [← hlists, hyx]
      exact mem_issues_append_cons (code_start_other hy (hstop hx))
  · exact hpair hswap hx hy hsame
  · exact hpair hdistinct hy hx hsame.symm
  · have hfault : ∀ {before after : List ParryEndpoint} {a b : ParryEndpoint},
        a.kind = (passOf x.kind.intervalKind).stop → b.kind = (passOf x.kind.intervalKind).stop →
        issue participantId b.row.sourceDataRow (passOf x.kind.intervalKind).stopPreviousNotStart ∈
          (passOf x.kind.intervalKind).issues participantId (before ++ a :: b :: after) := by
      intro before after a b ha hb
      rw [hshift]
      refine mem_issues_append_cons ?_
      rw [hlast]
      exact code_stop_other hsound hb (hstart ha)
    refine hissues (passOf x.kind.intervalKind).stopPreviousNotStart
      (passOf x.kind.intervalKind).stopPreviousNotStart ?_ ?_
    · rw [← hlists, hyx]
      exact hfault hy hx
    · rw [hxy]
      exact hfault hx hy

variable {tie : List ParryEndpoint} {groups before after : List (List ParryEndpoint)}

theorem forall₂_perm_refl (groups : List (List ParryEndpoint)) :
    List.Forall₂ List.Perm groups groups := List.forall₂_same.mpr fun _ _ => .refl _

/-- A tie whose order does not matter is settled. -/
theorem endpointTie_of_orderFree (hne : ∀ group ∈ before ++ tie :: after, group ≠ [])
    (hdistinct : (sources (before ++ tie :: after).flatten).Nodup)
    (hfree : ∀ groups', List.Forall₂ List.Perm (before ++ tie :: after) groups' →
      (parryPartition sha256 participantId groups'.flatten).outline =
        (parryPartition sha256 participantId (before ++ tie :: after).flatten).outline)
    (hlength : 2 ≤ tie.length) :
    EndpointTie (before.getLast?.getD []) tie (after.headD []) := by
  have hany : ∀ {before' tie' after'}, List.Forall₂ List.Perm before before' → tie.Perm tie' →
      List.Forall₂ List.Perm after after' →
      (parryPartition sha256 participantId (before'.flatten ++ (tie' ++ after'.flatten))).outline =
        (parryPartition sha256 participantId (before ++ tie :: after).flatten).outline := by
    intro before' tie' after' hbefore htie hafter
    have h := hfree (before' ++ tie' :: after') (List.rel_append hbefore (.cons htie hafter))
    rwa [List.flatten_append, List.flatten_cons] at h
  have hnodup : ∀ {before' tie' after'}, List.Forall₂ List.Perm before before' → tie.Perm tie' →
      List.Forall₂ List.Perm after after' →
      (sources (before'.flatten ++ (tie' ++ after'.flatten))).Nodup := by
    intro before' tie' after' hbefore htie hafter
    rw [List.flatten_append, List.flatten_cons] at hdistinct
    refine (List.Perm.map _ ?_).nodup_iff.mpr hdistinct
    exact (perm_flatten_of_forall₂ hbefore).append
      (htie.symm.append (perm_flatten_of_forall₂ hafter))
  have hkinds : ∀ {x y rest}, tie.Perm (x :: y :: rest) →
      x.kind.intervalKind ≠ y.kind.intervalKind := by
    intro x y rest hperm
    have hself := forall₂_perm_refl
    refine kinds_ne_of_exchange sha256 participantId before.flatten (rest ++ after.flatten)
      (hnodup (hself before) hperm (hself after)) ?_
    exact (hany (hself before) (hperm.trans (.swap _ _ _)) (hself after)).trans
      (hany (hself before) hperm (hself after)).symm
  have hcount : ∀ kind, (tie.filter fun e => e.kind.intervalKind = kind).length ≤ 1 := by
    intro kind
    by_contra hcontra
    obtain ⟨x, y, rest, hperm, hx, hy⟩ := exists_perm_cons_cons (not_le.mp hcontra)
    exact hkinds hperm ((of_decide_eq_true hx).trans (of_decide_eq_true hy).symm)
  -- the code of an endpoint at its place in one order is its code in every order
  have hcode : ∀ {endpoint code first first' last last' before₁ tie₁ after₁ before₂ tie₂ after₂},
      List.Forall₂ List.Perm before before₁ → tie.Perm tie₁ →
      List.Forall₂ List.Perm after after₁ →
      before₁.flatten ++ (tie₁ ++ after₁.flatten) = first ++ endpoint :: last →
      List.Forall₂ List.Perm before before₂ → tie.Perm tie₂ →
      List.Forall₂ List.Perm after after₂ →
      before₂.flatten ++ (tie₂ ++ after₂.flatten) = first' ++ endpoint :: last' →
      glancePass.code first.getLast? last.head? endpoint = some code →
      glancePass.code first'.getLast? last'.head? endpoint = some code := by
    intro endpoint code first first' last last' before₁ tie₁ after₁ before₂ tie₂ after₂
      hbefore₁ htie₁ hafter₁ hsplit₁ hbefore₂ htie₂ hafter₂ hsplit₂ hcode
    have hsame := (hany hbefore₁ htie₁ hafter₁).trans (hany hbefore₂ htie₂ hafter₂).symm
    have hrows := hnodup hbefore₂ htie₂ hafter₂
    rw [hsplit₁, hsplit₂] at hsame
    rw [hsplit₂] at hrows
    refine code_of_mem_issues participantId hrows ?_
    have hlists : glancePass.issues participantId (first' ++ endpoint :: last') =
        glancePass.issues participantId (first ++ endpoint :: last) := by
      have h₁ := filter_issues sha256 participantId .glance
        (first ++ endpoint :: last)
      have h₂ := filter_issues sha256 participantId .glance
        (first' ++ endpoint :: last')
      have hsnd := congrArg Prod.snd hsame
      simp only [ScreenSemanticSignature.outline] at hsnd
      rw [← hsnd, h₁] at h₂
      exact h₂.symm
    rw [hlists]
    exact mem_issues_append_cons hcode
  refine ⟨hcount .glance, hcount .session, fun endpoint hmem => ⟨fun hstart => ?_, fun hstop => ?_⟩⟩
  · obtain ⟨others, hothers⟩ := exists_perm_cons hmem
    obtain ⟨other, more, rfl⟩ : ∃ other more, others = other :: more := by
      have hcount := hothers.length_eq
      cases others with
      | nil => rw [List.length_singleton] at hcount; omega
      | cons other more => exact ⟨other, more, rfl⟩
    have hother : other.kind ≠ glancePass.stop := fun h =>
      hkinds hothers (by rw [hstart, h]; rfl)
    have hlast : tie.Perm ((other :: more) ++ [endpoint]) :=
      hothers.trans (List.perm_append_singleton endpoint (other :: more)).symm
    have hmoved : ∀ after', List.Forall₂ List.Perm after after' →
        glancePass.code (before.flatten ++ (other :: more)).getLast? after'.flatten.head? endpoint =
          some glancePass.startNextNotStop := by
      intro after' hafter
      refine hcode (forall₂_perm_refl before) hothers (forall₂_perm_refl after) rfl
        (forall₂_perm_refl before) hlast hafter (by simp) ?_
      exact code_start_other hstart hother
    cases after with
    | nil =>
        have h := hmoved [] .nil
        rw [List.flatten_nil, List.head?_nil, code_start_none hstart] at h
        exact absurd (Option.some.inj h) (by decide)
    | cons next after =>
        have hnextNe := hne next (by simp)
        refine ⟨hnextNe, fun o ho hoStop => ?_⟩
        obtain ⟨rest, hrest⟩ := exists_perm_cons ho
        have h := hmoved ((o :: rest) :: after) (.cons hrest (forall₂_perm_refl after))
        rw [List.flatten_cons, List.cons_append, List.head?_cons, code_start_stop hstart hoStop] at h
        cases h
  · obtain ⟨others, hothers⟩ := exists_perm_cons hmem
    obtain ⟨other, more, rfl⟩ : ∃ other more, others = other :: more := by
      have hcount := hothers.length_eq
      cases others with
      | nil => rw [List.length_singleton] at hcount; omega
      | cons other more => exact ⟨other, more, rfl⟩
    have hother : other.kind ≠ glancePass.start := fun h =>
      hkinds hothers (by rw [hstop, h]; rfl)
    have hsecond : tie.Perm (other :: endpoint :: more) := hothers.trans (.swap _ _ _)
    have hmoved : ∀ before', List.Forall₂ List.Perm before before' →
        glancePass.code before'.flatten.getLast? ((other :: more) ++ after.flatten).head? endpoint =
          some glancePass.stopPreviousNotStart := by
      intro before' hbefore
      refine @hcode _ _ (before.flatten ++ [other]) _ (more ++ after.flatten) _ _ _ _ _ _ _
        (forall₂_perm_refl before) hsecond (forall₂_perm_refl after) (by simp)
        hbefore hothers (forall₂_perm_refl after) rfl ?_
      rw [List.getLast?_append, List.getLast?_singleton, Option.some_or]
      exact code_stop_other glancePass_sound hstop hother
    rcases List.eq_nil_or_concat before with rfl | ⟨before₀, previous, rfl⟩
    · have h := hmoved [] .nil
      rw [List.flatten_nil, List.getLast?_nil, code_stop_none glancePass_sound hstop] at h
      exact absurd (Option.some.inj h) (by decide)
    · have hprevious : (before₀.concat previous).getLast?.getD [] = previous := by simp
      rw [hprevious]
      have hpreviousNe := hne previous (by simp)
      refine ⟨hpreviousNe, fun o ho hoStart => ?_⟩
      obtain ⟨rest, hrest⟩ := exists_perm_cons ho
      have hperm : previous.Perm (rest ++ [o]) :=
        hrest.trans (List.perm_append_singleton o rest).symm
      have h := hmoved (before₀ ++ [rest ++ [o]]) (by
        rw [List.concat_eq_append]
        exact List.rel_append (forall₂_perm_refl before₀) (.cons hperm .nil))
      have hgetLast : (before₀ ++ [rest ++ [o]]).flatten.getLast? = some o := by simp
      rw [hgetLast, code_stop_start glancePass_sound hstop hoStart] at h
      cases h

variable (sha256 participantId) in
/-- When the order of tied endpoints does not matter, every tie is settled. -/
theorem endpointsSettled_of_orderFree (hne : ∀ group ∈ groups, group ≠ [])
    (hdistinct : (sources groups.flatten).Nodup)
    (hfree : ∀ groups', List.Forall₂ List.Perm groups groups' →
      (parryPartition sha256 participantId groups'.flatten).outline =
        (parryPartition sha256 participantId groups.flatten).outline) :
    EndpointsSettled [] groups := by
  have hsplits : ∀ (previous : List ParryEndpoint) (groups : List (List ParryEndpoint)),
      (∀ before tie after, groups = before ++ tie :: after → 2 ≤ tie.length →
        EndpointTie (before.getLast?.getD previous) tie (after.headD [])) →
      EndpointsSettled previous groups := by
    intro previous groups h
    induction groups generalizing previous with
    | nil => trivial
    | cons tie groups ih =>
        refine ⟨h [] tie groups rfl, ih tie fun before other after hsplit hlength => ?_⟩
        have h := h (tie :: before) other after (by rw [hsplit, List.cons_append]) hlength
        rwa [List.getLast?_cons, Option.getD_some] at h
  refine hsplits [] groups fun before tie after hsplit hlength => ?_
  subst hsplit
  exact endpointTie_of_orderFree hne hdistinct hfree hlength

end Decisive

end Chronicle.Screens
