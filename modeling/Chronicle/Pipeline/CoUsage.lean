import Chronicle.Pipeline.Culverhouse
import Chronicle.Pipeline.Totals
import Mathlib.Data.List.Sym

/-!
# Co-usage of apps

For every participant and every two of its apps: how often sessions of the two overlap, and for how
long. Sessions that have ended are retired on the way, and no overlap is lost by it.
-/

namespace Chronicle.Pipeline

open Chronicle.Library Chronicle.Library.Machine Chronicle.Library.StableSort

/-- `complete`, for app rows. -/
def isCompleteUsage (row : Row) : Bool :=
  row.interactionType = appUsage && row.appPackageName ≠ noActivityPlaceholderPackage &&
    row.startTimestampNs.isSome && row.stopTimestampNs.isSome

/-- The start of a session. -/
def Row.startNs (row : Row) : Int := row.startTimestampNs.getD 0

/-- The stop of a session. -/
def Row.stopNs (row : Row) : Int := row.stopTimestampNs.getD 0

/-- Two apps in the order of their names. -/
def sortedNames (row other : Row) : String × String :=
  (min row.appPackageName other.appPackageName, max row.appPackageName other.appPackageName)

/-- What an active session adds to the entry of two apps when a session begins. -/
def coUse (session other : Row) : Option ((String × String) × Int) :=
  let overlap := wrap64 (min other.stopNs session.stopNs - session.startNs)
  if other.appPackageName = session.appPackageName ∨ overlap ≤ 0 then none
  else some (sortedNames other session, overlap)

/-- The loop over the sessions of a participant, with the active ones. -/
def coUses (active : List Row) : List Row → List ((String × String) × Int)
  | [] => []
  | session :: rest =>
      let active := active.filter fun other => other.stopNs > session.startNs
      active.filterMap (coUse session) ++ coUses (active ++ [session]) rest

/-- The number of the overlaps of two apps, and their sum. -/
def entryOf (names : String × String) (uses : List ((String × String) × Int)) : Nat × Int :=
  (uses.filter fun use => use.1 = names).foldl
    (fun entry use => (entry.1 + 1, entry.2 + use.2)) (0, 0)

/-- The sessions of a participant in a study. -/
def sessionsOf (rows : List Row) (studyId participantId : String) : List Row :=
  rows.filter fun row =>
    isCompleteUsage row && row.studyId = studyId && row.participantId = participantId

/-- The `pairs` of `co_usage_csv` for a participant of a study. -/
def coUsage (rows : List Row) (studyId participantId : String) (names : String × String) :
    Nat × Int :=
  entryOf names (coUses [] (sortByKey Row.startNs (sessionsOf rows studyId participantId)))

/-! ## All overlaps -/

/-- The apps and the length of an overlap, of two sessions of different apps. -/
def overlapOf (row other : Row) : Option ((String × String) × Int) :=
  let overlap := min row.stopNs other.stopNs - max row.startNs other.startNs
  if row.appPackageName = other.appPackageName ∨ overlap ≤ 0 then none
  else some (sortedNames row other, overlap)

theorem overlapOf_comm (row other : Row) : overlapOf row other = overlapOf other row := by
  simp only [overlapOf, sortedNames, min_comm row.stopNs, max_comm row.startNs,
    min_comm row.appPackageName, max_comm row.appPackageName, eq_comm (a := row.appPackageName)]

theorem overlapOf_self (row : Row) : overlapOf row row = none := if_pos (.inl rfl)

/-- The overlaps of all unordered pairs of sessions. -/
def overlaps (rows : List Row) : List ((String × String) × Int) :=
  rows.sym2.filterMap (Sym2.lift ⟨overlapOf, overlapOf_comm⟩)

theorem overlaps_perm {rows rows' : List Row} (h : rows.Perm rows') :
    (overlaps rows).Perm (overlaps rows') :=
  h.sym2.filterMap _

theorem overlaps_concat (before : List Row) (session : Row) :
    (overlaps (before ++ [session])).Perm
      (overlaps before ++ before.filterMap fun other => overlapOf other session) := by
  refine (overlaps_perm (List.perm_append_singleton session before)).trans ?_
  have hsplit : overlaps (session :: before) =
      (before.filterMap fun other => overlapOf other session) ++ overlaps before := by
    simp only [overlaps, List.sym2, List.filterMap_append, List.filterMap_map, List.filterMap_cons,
      Function.comp_def, Sym2.lift_mk, overlapOf_self, overlapOf_comm session]
  rw [hsplit]
  exact List.perm_append_comm

/-- A retired session has no overlap with one that begins later. -/
theorem filterMap_coUse {session : Row} {before : List Row}
    (hfits : Fits64 (session.stopNs - session.startNs))
    (hbefore : ∀ other ∈ before, other.startNs ≤ session.startNs) :
    (before.filter fun other => other.stopNs > session.startNs).filterMap (coUse session) =
      before.filterMap fun other => overlapOf other session := by
  rw [List.filterMap_filter]
  refine List.filterMap_congr fun other hother => ?_
  have hstart := hbefore other hother
  have hmax : max other.startNs session.startNs = session.startNs := max_eq_right hstart
  by_cases hactive : other.stopNs > session.startNs
  · have hwrap : wrap64 (min other.stopNs session.stopNs - session.startNs) =
        min other.stopNs session.stopNs - session.startNs := by
      apply wrap64_of_fits
      rw [fits64_iff] at hfits ⊢
      omega
    simp only [hactive, decide_true, if_true, coUse, overlapOf, hwrap, hmax]
  · have hover : min other.stopNs session.stopNs - session.startNs ≤ 0 := by omega
    simp [hactive, overlapOf, hmax, hover]

theorem coUses_perm {active before rest : List Row}
    (hfits : ∀ session ∈ rest, Fits64 (session.stopNs - session.startNs))
    (hsorted : (before ++ rest).Pairwise fun a b => a.startNs ≤ b.startNs)
    (hactive : ∀ session ∈ rest, (active.filter fun other => other.stopNs > session.startNs) =
      before.filter fun other => other.stopNs > session.startNs) :
    (overlaps before ++ coUses active rest).Perm (overlaps (before ++ rest)) := by
  induction rest generalizing active before with
  | nil => simp [coUses]
  | cons session rest ih =>
      have hsplit := List.pairwise_append.mp hsorted
      have hlater := List.pairwise_cons.mp hsplit.2.1
      rw [coUses, hactive session List.mem_cons_self, filterMap_coUse
        (hfits session List.mem_cons_self) fun other hother =>
          hsplit.2.2 other hother session List.mem_cons_self]
      have hnext := @ih
        ((before.filter fun other => other.stopNs > session.startNs) ++ [session])
        (before ++ [session])
        (fun other hother => hfits other (List.mem_cons_of_mem _ hother))
        (by rwa [List.append_assoc]) fun next hin => by
          have hle := hlater.1 next hin
          rw [List.filter_append, List.filter_append, List.filter_filter]
          congr 1
          refine List.filter_congr fun other _ => ?_
          simp only [Bool.and_eq_decide, decide_eq_decide, decide_eq_true_eq]
          omega
      rw [← List.append_assoc, List.append_cons before]
      exact ((overlaps_concat before session).symm.append_right _).trans hnext

theorem entryOf_perm {uses uses' : List ((String × String) × Int)} (h : uses.Perm uses')
    (names : String × String) : entryOf names uses = entryOf names uses' := by
  refine (h.filter _).foldl_eq' (fun a _ b _ entry => ?_) _
  rw [Prod.mk.injEq]
  exact ⟨rfl, Int.add_right_comm ..⟩

/-- Every two sessions of a participant that overlap are counted once, with the length of their
overlap. -/
theorem co_usage_counts_overlaps {rows : List Row} {studyId participantId : String}
    (hfits : ∀ row ∈ sessionsOf rows studyId participantId, Fits64 (row.stopNs - row.startNs))
    (names : String × String) :
    coUsage rows studyId participantId names =
      entryOf names (overlaps (sessionsOf rows studyId participantId)) := by
  have hsweep := @coUses_perm [] [] _
    (fun row hrow => hfits row (mem_sortByKey.mp hrow)) (pairwise_sortByKey Row.startNs _)
    fun _ _ => rfl
  exact (entryOf_perm hsweep names).trans
    (entryOf_perm (overlaps_perm (perm_sortByKey Row.startNs _)) names)

/-- Two sessions that overlap by a second. -/
theorem co_usage_counts_overlaps_two :
    coUsage [appUsageRow 0 3000000000, { appUsageRow 2000000000 5000000000 with
      appPackageName := "com.example.maps" }] "" "P1" ("com.example.chat", "com.example.maps") =
        (1, 1000000000) :=
  (co_usage_counts_overlaps (by decide) _).trans (by decide)

end Chronicle.Pipeline
