import Chronicle.Eyes.Evidence
import Chronicle.Eyes.TripletRuns

/-!
# The emitted episodes

The second pass resolves each block once, while it is still as the events left it. The repair walk
only looks at blocks created later, so a repaired stop does not precede the resume either; every
duration is the one the validator expects. The packages of the episodes are those of the app events.
-/

namespace Chronicle.Eyes

open Chronicle.Library Chronicle.Library.Machine Chronicle.Library.StableSort

variable {instants : Set Int} {created : Nat → Int} {arena : List TripletBlock} {index : Nat}
  {block : TripletBlock}

/-! ## Durations -/

/-- A duration that the validator computes: finite and not negative. -/
def ProperSeconds (seconds : Binary64) : Prop :=
  seconds.isFinite = true ∧ seconds.isNegative = false

theorem properSeconds_zero : ProperSeconds (.finite 0) := ⟨rfl, by simp [Binary64.isNegative]⟩

/-- Between two instants in order, the producer and the validator compute the same duration. -/
theorem checkedSeconds_eq (hcomparable : Comparable instants) {start stop : Int}
    (hstart : start ∈ instants) (hstop : stop ∈ instants) (hle : start ≤ stop) :
    checkedSeconds start stop = .ok (secondsBetween start stop) ∧
      ProperSeconds (secondsBetween start stop) := by
  have hfits := hcomparable stop hstop start hstart
  have hvalue : secondsBetween start stop =
      .finite (Binary64.nearest (Binary64.nearest (stop - start : ℤ) / 1000000000)) := by
    rw [secondsBetween, hcomparable.wrap_sub hstop hstart,
      Binary64.ofInt_divConst hfits (by norm_num)]
  refine ⟨?_, ?_⟩
  · have hnot : ¬ (stop - start < 0 ∨ stop - start > i64Max) := by
      rw [not_or]
      exact ⟨by omega, not_lt.mpr hfits.2⟩
    unfold checkedSeconds
    dsimp only
    rw [if_neg hnot, secondsBetween, hcomparable.wrap_sub hstop hstart]
  · have hnonneg : (0 : ℚ) ≤ (stop - start : ℤ) := by exact_mod_cast (show 0 ≤ stop - start by omega)
    have hrounded := Binary64.nearest_nonneg
      (div_nonneg (Binary64.nearest_nonneg hnonneg) (by norm_num : (0 : ℚ) ≤ 1000000000))
    rw [hvalue]
    exact ⟨rfl, decide_eq_false (not_lt.mpr hrounded)⟩

/-! ## The repair -/

/-- The walk ends at a block created after the one it started from. -/
theorem walkChain_later (hok : ArenaOk instants created arena) {appName : String} {fuel : Nat}
    {cursor : Option Nat} (hcursor : ∀ j ∈ cursor, index < j) {candidate : Nat}
    (hwalk : walkChain arena appName fuel cursor = some candidate) : index < candidate := by
  fun_induction walkChain arena appName fuel cursor with
  | case1 => cases hwalk
  | case2 => cases hwalk
  | case3 fuel candidate hnone => cases hwalk
  | case4 fuel candidate' block' hblock hstops =>
      exact hcursor candidate (by rw [hwalk]; rfl)
  | case5 fuel candidate' block' hblock hgoes ih =>
      refine ih (fun j hj => ?_) hwalk
      exact (hcursor candidate' rfl).trans ((hok.blocks candidate' block' hblock).next j hj)

/-- The walk has fuel enough: each step leads to a later block. -/
theorem walkChain_succ (hok : ArenaOk instants created arena) {appName : String} {fuel : Nat}
    {cursor : Option Nat} (hfuel : ∀ j ∈ cursor, arena.length ≤ j + fuel) :
    walkChain arena appName (fuel + 1) cursor = walkChain arena appName fuel cursor := by
  induction fuel generalizing cursor with
  | zero =>
      cases cursor with
      | none => rfl
      | some j =>
          have hnone : arena[j]? = none := List.getElem?_eq_none_iff.mpr (hfuel j rfl)
          simp only [walkChain, hnone]
  | succ fuel ih =>
      cases cursor with
      | none => rfl
      | some j =>
          unfold walkChain
          cases hblock : arena[j]? with
          | none => rfl
          | some block =>
              dsimp only
              split
              · rfl
              · refine ih fun next hnext => ?_
                have hlater := (hok.blocks j block hblock).next next hnext
                have hbound := hfuel j rfl
                omega

/-- What the second pass makes of a block, and the duration it gives. -/
structure Resolved (instants : Set Int) (createdNs : Int) (index : Nat) (block resolved : TripletBlock)
    (seconds : Binary64) : Prop where
  appName : resolved.appName = block.appName
  block : BlockOk instants createdNs index resolved
  expected : expectedEpisodeDurationSeconds (resolved.episode seconds) .tripletStructured =
    .ok seconds
  proper : ProperSeconds seconds

/-- An end that is either absent or later than the resume has the duration the validator expects. -/
theorem elim_checkedSeconds (hcomparable : Comparable instants) {resume : Int}
    (hresume : resume ∈ instants) {stop : Option Int}
    (hstop : ∀ t ∈ stop, resume ≤ t ∧ t ∈ instants) :
    stop.elim (.ok (.finite 0)) (checkedSeconds resume) =
        .ok (stop.elim (.finite 0) (secondsBetween resume)) ∧
      ProperSeconds (stop.elim (.finite 0) (secondsBetween resume)) := by
  cases stop with
  | none => exact ⟨rfl, properSeconds_zero⟩
  | some stop =>
      obtain ⟨hle, hmem⟩ := hstop stop rfl
      exact checkedSeconds_eq hcomparable hresume hmem hle

section Resolve

variable {resume : Int} (hok : ArenaOk instants created arena) (hblock : arena[index]? = some block)
  (hresume : block.timeResume = some resume)

include hok hblock hresume

/-- The block has no usable end. -/
theorem resolved_zero (hend : block.endInference = .unobserved ∨
    block.timeStop = none ∧ block.endInference ≠ .pauseFallback) :
    Resolved instants (created index) index block block (.finite 0) := by
  refine ⟨rfl, hok.blocks index block hblock, ?_, properSeconds_zero⟩
  simp only [expectedEpisodeDurationSeconds, TripletBlock.episode, hresume]
  rcases hend with hunobserved | ⟨hstop, hfallback⟩
  · rw [hunobserved]
  · cases hinference : block.endInference with
    | pauseFallback => exact absurd hinference hfallback
    | unobserved => rfl
    | _ => simp only [hstop, Option.elim_none]

variable (hcomparable : Comparable instants)

include hcomparable

/-- The block ends at its pause. -/
theorem resolved_pause {pause : Int} (hpause : block.timePause = some pause) :
    Resolved instants (created index) index block (block.endAs .pauseFallback)
      (secondsBetween resume pause) := by
  have hbounds := hok.blocks index block hblock
  have hcreated := hbounds.resume resume hresume
  have hknown := hok.known index (List.getElem?_eq_some_iff.mp hblock).1
  obtain ⟨hle, hmem⟩ := hbounds.pause pause hpause
  obtain ⟨hexpected, hproper⟩ :=
    checkedSeconds_eq hcomparable (hcreated ▸ hknown) hmem (hcreated ▸ hle)
  refine ⟨rfl, ⟨hbounds.resume, hbounds.pause, hbounds.stop, hbounds.next⟩, ?_, hproper⟩
  simp only [expectedEpisodeDurationSeconds, TripletBlock.episode, TripletBlock.endAs, hresume,
    hpause, Option.elim_some, hexpected]

/-- The block ends at its pause, or nowhere. -/
theorem resolved_boundedByPause (hend : block.endInference = .unobserved ∨
    block.timeStop = none ∧ block.endInference ≠ .pauseFallback) :
    Resolved instants (created index) index block (block.boundedByPause resume).1
      (block.boundedByPause resume).2 := by
  unfold TripletBlock.boundedByPause
  cases hpause : block.timePause with
  | some pause => exact resolved_pause hok hblock hresume hcomparable hpause
  | none => exact resolved_zero hok hblock hresume hend

/-- The block, or its repair, is closed by a stop. -/
theorem resolved_stop {inference : EyesEpisodeEndInference} {stop : Option Int}
    (hstop : ∀ t ∈ stop, created index ≤ t ∧ t ∈ instants)
    (hinference : inference ≠ .pauseFallback ∧ inference ≠ .unobserved) :
    Resolved instants (created index) index block
      { block with timeStop := stop, endInference := inference }
      (stop.elim (.finite 0) (secondsBetween resume)) := by
  have hbounds := hok.blocks index block hblock
  have hcreated := hbounds.resume resume hresume
  have hknown := hok.known index (List.getElem?_eq_some_iff.mp hblock).1
  obtain ⟨hexpected, hproper⟩ :=
    elim_checkedSeconds hcomparable (hcreated ▸ hknown) (hcreated ▸ hstop)
  refine ⟨rfl, ⟨hbounds.resume, hbounds.pause, hstop, hbounds.next⟩, ?_, hproper⟩
  simp only [expectedEpisodeDurationSeconds, TripletBlock.episode, hresume]
  cases inference with
  | pauseFallback => exact absurd rfl hinference.1
  | unobserved => exact absurd rfl hinference.2
  | _ => exact hexpected

/-- The repair of an anomalous block without a stop. -/
theorem resolved_repair (hstop : block.timeStop = none)
    (hinference : block.endInference ≠ .pauseFallback) :
    Resolved instants (created index) index block (repairBlock arena resume block).1
      (repairBlock arena resume block).2 := by
  unfold repairBlock
  cases hcandidate : (walkChain arena block.appName (arena.length + 1) block.next).bind
      (arena[·]?) with
  | none =>
      exact resolved_boundedByPause hok hblock hresume hcomparable (Or.inr ⟨hstop, hinference⟩)
  | some candidate =>
      obtain ⟨later, hwalk, hlater⟩ := Option.bind_eq_some_iff.mp hcandidate
      have hindex := walkChain_later hok (hok.blocks index block hblock).next hwalk
      have hbounds := hok.blocks later candidate hlater
      have hlength := (List.getElem?_eq_some_iff.mp hlater).1
      have hordered := hok.ordered index later hindex.le hlength
      dsimp only
      split
      · exact resolved_stop hok hblock hresume hcomparable
          (fun t ht => ⟨hordered.trans (hbounds.stop t ht).1, (hbounds.stop t ht).2⟩)
          ⟨by decide, by decide⟩
      · refine resolved_stop hok hblock hresume hcomparable (fun t ht => ?_) ⟨by decide, by decide⟩
        rw [hbounds.resume t ht]
        exact ⟨hordered, hok.known later hlength⟩

end Resolve

/-- A block that is as the events left it is resolved to what the validator expects. -/
theorem resolveBlock_spec (hcomparable : Comparable instants)
    (hok : ArenaOk instants created arena) (hblock : arena[index]? = some block)
    (hfresh : block.Fresh) :
    Resolved instants (created index) index block
      (resolveBlock arena .tripletStructured block).1
      (resolveBlock arena .tripletStructured block).2 := by
  have hstops := (hok.blocks index block hblock).stop
  unfold resolveBlock
  cases hresume : block.timeResume with
  | none =>
      refine ⟨rfl, hok.blocks index block hblock, ?_, properSeconds_zero⟩
      simp only [expectedEpisodeDurationSeconds, TripletBlock.episode, hresume]
  | some resume =>
      have hstopped : ∀ stop, block.timeStop = some stop →
          block.endInference ≠ .pauseFallback ∧ block.endInference ≠ .unobserved →
          Resolved instants (created index) index block block (secondsBetween resume stop) := by
        intro stop hstop hinference
        have hresolved := resolved_stop hok hblock hresume hcomparable hstops hinference
        have hseconds : block.timeStop.elim (.finite 0) (secondsBetween resume) =
            secondsBetween resume stop := by rw [hstop, Option.elim_some]
        exact hseconds ▸ hresolved
      have hpaused : block.endInference = .unobserved ∨ block.timeStop = none →
          Resolved instants (created index) index block (block.boundedByPause resume).1
            (block.boundedByPause resume).2 :=
        fun hend => resolved_boundedByPause hok hblock hresume hcomparable
          (hend.imp_right fun h => ⟨h, hfresh.2⟩)
      have hrepaired : block.timeStop = none →
          Resolved instants (created index) index block (repairBlock arena resume block).1
            (repairBlock arena resume block).2 :=
        fun h => resolved_repair hok hblock hresume hcomparable h hfresh.2
      simp only [reduceCtorEq, if_false]
      -- by how the block ended and whether its stop was seen
      cases hinference : block.endInference <;> cases hstop : block.timeStop <;> dsimp only
      all_goals first
        | exact absurd hinference hfresh.1
        | exact absurd hinference hfresh.2
        | exact hrepaired hstop
        | exact hpaused (Or.inl hinference)
        | exact hpaused (Or.inr hstop)
        | exact hstopped _ hstop (by rw [hinference]; exact ⟨by decide, by decide⟩)

/-! ## The second pass -/

/-- An episode as the validator accepts it, its package apart. -/
structure ProperEpisode (instants : Set Int) (episode : EyesAppEpisode) : Prop where
  expected : expectedEpisodeDurationSeconds episode .tripletStructured =
    .ok episode.durationSeconds
  proper : ProperSeconds episode.durationSeconds
  span : EpisodeSpan instants episode

theorem Resolved.properEpisode {createdNs : Int} {resolved : TripletBlock} {seconds : Binary64}
    (h : Resolved instants createdNs index block resolved seconds) (hcreated : createdNs ∈ instants) :
    ProperEpisode instants (resolved.episode seconds) := by
  refine ⟨h.expected, h.proper, fun span hspan => ?_⟩
  unfold EyesAppEpisode.interval at hspan
  split at hspan
  · rename_i start stop hstart hstop
    obtain rfl := Option.some.inj hspan
    obtain rfl := h.block.resume start hstart
    have hend : start ≤ stop ∧ stop ∈ instants := by
      rcases Option.or_eq_some_iff.mp hstop with hstop | ⟨-, hpause⟩
      · exact h.block.stop stop hstop
      · exact h.block.pause stop hpause
    exact ⟨hcreated, hend.2, hend.1⟩
  · exact absurd hspan (Option.not_mem_none span)

theorem ArenaOk.set (hok : ArenaOk instants created arena) {resolved : TripletBlock}
    (hresolved : BlockOk instants (created index) index resolved) :
    ArenaOk instants created (arena.set index resolved) := by
  refine ⟨fun i hi => hok.known i (by simpa using hi),
    fun i j hij hj => hok.ordered i j hij (by simpa using hj), fun i b hb => ?_⟩
  rw [List.getElem?_set] at hb
  split at hb
  · rename_i heq
    split at hb
    · obtain rfl := Option.some.inj hb
      exact heq ▸ hresolved
    · cases hb
  · exact hok.blocks i b hb

/-- Each block is emitted as one proper episode of its package. -/
theorem emitEpisodes_spec (hcomparable : Comparable instants) {indices : List Nat}
    (hok : ArenaOk instants created arena) (hnodup : indices.Nodup)
    (hfresh : ∀ i ∈ indices, ∀ b ∈ arena[i]?, b.Fresh) :
    (∀ episode ∈ emitEpisodes .tripletStructured indices arena,
        ProperEpisode instants episode) ∧
      (emitEpisodes .tripletStructured indices arena).map EyesAppEpisode.appPackageName =
        indices.filterMap fun i => (arena[i]?).map TripletBlock.appName := by
  induction indices generalizing arena with
  | nil => exact ⟨fun _ h => absurd h List.not_mem_nil, rfl⟩
  | cons i rest ih =>
      obtain ⟨hnot, hrest⟩ := List.nodup_cons.mp hnodup
      unfold emitEpisodes
      cases hblock : arena[i]? with
      | none =>
          obtain ⟨hproper, hpackages⟩ :=
            ih hok hrest fun j hj => hfresh j (List.mem_cons_of_mem _ hj)
          refine ⟨hproper, ?_⟩
          rw [hpackages, List.filterMap_cons, hblock]
          rfl
      | some block =>
          have hresolved := resolveBlock_spec hcomparable hok hblock
            (hfresh i List.mem_cons_self block (by rw [hblock]; rfl))
          -- the rest of the blocks are not touched
          have hother : ∀ j ∈ rest, (arena.set i (resolveBlock arena .tripletStructured block).1)[j]? =
              arena[j]? := fun j hj => List.getElem?_set_ne fun heq => hnot (by rwa [heq])
          obtain ⟨hproper, hpackages⟩ := ih (hok.set hresolved.block) hrest
            fun j hj => by rw [hother j hj]; exact hfresh j (List.mem_cons_of_mem _ hj)
          refine ⟨List.forall_mem_cons.mpr ⟨hresolved.properEpisode
            (hok.known i (List.getElem?_eq_some_iff.mp hblock).1), hproper⟩, ?_⟩
          rw [List.map_cons, hpackages, List.filterMap_cons, hblock]
          refine congrArg₂ _ hresolved.appName (List.filterMap_congr fun j hj => ?_)
          rw [hother j hj]

/-- The blocks are emitted once each. -/
theorem TripletState.emissionOrder_perm (s : TripletState) :
    s.emissionOrder.Perm (s.packageOrder.flatMap fun package => (s.queues package).all) := by
  unfold TripletState.emissionOrder PackageQueues.all
  exact ((List.flatMap_append_perm _ _ _).append_right _).trans (List.flatMap_append_perm _ _ _)

theorem QueueInv.nodup_emissionOrder {s : TripletState} (h : QueueInv s) :
    s.emissionOrder.Nodup := by
  rw [s.emissionOrder_perm.nodup_iff, List.nodup_flatMap]
  refine ⟨fun package _ => (h.owned package).nodup, h.order.imp fun hne i hi hi' => ?_⟩
  have hsame := ((h.owned _).owner i hi).symm.trans ((h.owned _).owner i hi')
  exact hne (Option.some.inj hsame)

/-- The packages of the blocks are the known ones. -/
theorem QueueInv.mem_appNames {s : TripletState} (h : QueueInv s) {package : String} :
    package ∈ s.emissionOrder.filterMap (fun i => (s.arena[i]?).map TripletBlock.appName) ↔
      package ∈ s.packageOrder := by
  rw [List.mem_filterMap]
  simp only [s.emissionOrder_perm.mem_iff, List.mem_flatMap]
  constructor
  · rintro ⟨i, ⟨owner, howner, hi⟩, hname⟩
    rw [(h.owned owner).owner i hi] at hname
    exact Option.some.inj hname ▸ howner
  · intro hknown
    obtain ⟨i, hi⟩ := List.exists_mem_of_ne_nil _ (h.inhabited package hknown)
    exact ⟨i, ⟨package, hknown, hi⟩, (h.owned package).owner i hi⟩

/-- With the production options every episode is proper, and the packages of the episodes are those
of the app events. -/
theorem reconstructAppTriplets_spec (hcomparable : Comparable instants)
    {events : List (EyesEvent × EyesSignal)}
    (hsorted : events.Pairwise fun a b => a.1.timestampNs ≤ b.1.timestampNs)
    (hinstants : ∀ entry ∈ events, entry.1.timestampNs ∈ instants) (proximityIntervalNs : Int) :
    (∀ episode ∈ reconstructAppTriplets events (productionOptions proximityIntervalNs),
        ProperEpisode instants episode) ∧
      ∀ package, (∃ episode ∈ reconstructAppTriplets events (productionOptions proximityIntervalNs),
          episode.appPackageName = package) ↔
        ∃ entry ∈ events, entry.2.isAppSignal = true ∧ entry.1.appPackageName = package := by
  obtain ⟨first, hfirst⟩ : ∃ first, ∀ entry ∈ events, first ≤ entry.1.timestampNs := by
    cases events with
    | nil => exact ⟨0, fun _ h => absurd h List.not_mem_nil⟩
    | cons entry rest =>
        exact ⟨entry.1.timestampNs,
          List.forall_mem_cons.mpr ⟨le_rfl, (List.pairwise_cons.mp hsorted).1⟩⟩
  obtain ⟨⟨last, harena⟩, hqueues, hknown⟩ := run_invariant
    (secondsToNs (productionOptions proximityIntervalNs).proximityIntervalSeconds) hsorted
    hinstants hfirst (arenaInv_initial instants first) queueInv_initial
  obtain ⟨created, hok, -⟩ := harena.arena
  obtain ⟨hproper, hpackages⟩ := emitEpisodes_spec hcomparable hok hqueues.nodup_emissionOrder
    fun i _ b hb => harena.fresh b (List.mem_of_getElem? hb)
  refine ⟨hproper, fun package => ?_⟩
  have hmem := @QueueInv.mem_appNames _ hqueues package
  rw [← hpackages, List.mem_map, hknown package] at hmem
  refine hmem.trans ⟨fun h => h.resolve_left List.not_mem_nil, Or.inr⟩

end Chronicle.Eyes
