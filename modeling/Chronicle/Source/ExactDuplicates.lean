import Mathlib.Data.List.Induction
import Chronicle.Library.Loop
import Chronicle.Pipeline.Lineage

/-!
# Exact duplicates

Rows that agree in participant, timestamp, interaction type and package are one event. The first of
them stays, with the raw data rows of all of them.
-/

namespace Chronicle.Source

open Chronicle.Pipeline

/-- The key of `dedupe_exact_rows`. -/
abbrev EventKey := String × Int × String × String

/-- What rows of one event share. -/
def eventKey (row : Row) : EventKey :=
  (row.participantId, row.eventTimestampNs, row.interactionType, row.appPackageName)

/-- `source_data_rows.merge` of a row that is kept. -/
def mergeSources (additional : SourceDataRows) (row : Row) : Row :=
  { row with sourceDataRows := row.sourceDataRows.merge additional }

/-- The variables of `dedupe_exact_rows`. -/
structure Deduplication where
  seen : EventKey → Option Nat
  out : List Row

/-- The loop body of `dedupe_exact_rows`. -/
def Deduplication.push (state : Deduplication) (row : Row) : Deduplication :=
  match state.seen (eventKey row) with
  | some index =>
      { state with out := state.out.modify index (mergeSources row.sourceDataRows) }
  | none =>
      { seen := Function.update state.seen (eventKey row) (some state.out.length)
        out := state.out ++ [row] }

/-- `dedupe_exact_rows` -/
def dedupeExactRows (rows : List Row) : List Row :=
  (rows.foldl Deduplication.push ⟨fun _ => none, []⟩).out

/-- `coalesce_duplicate_event_keys` -/
def coalesceDuplicateEventKeys (rows : List Row) (enabled : Bool) : List Row :=
  if enabled then dedupeExactRows rows else rows

/-! ## First occurrences -/

/-- The rows before which no row of the same event stands. -/
def firstOccurrences (rows : List Row) : List Row :=
  (rows.zipIdx.filter fun entry =>
    (rows.take entry.2).all fun earlier => eventKey earlier ≠ eventKey entry.1).map Prod.fst

/-- A row without its raw data rows. -/
def withoutSources (row : Row) : Row := { row with sourceDataRows := [] }

theorem firstOccurrences_append_singleton (rows : List Row) (row : Row) :
    firstOccurrences (rows ++ [row]) = firstOccurrences rows ++
      if ∃ earlier ∈ rows, eventKey earlier = eventKey row then [] else [row] := by
  have hbefore : ∀ entry ∈ rows.zipIdx, (rows ++ [row]).take entry.2 = rows.take entry.2 := by
    intro entry hentry
    exact List.take_append_of_le_length (List.snd_lt_of_mem_zipIdx hentry).le
  unfold firstOccurrences
  rw [List.zipIdx_append, List.filter_append, List.map_append]
  congr 1
  · congr 1
    exact List.filter_congr fun entry hentry => by rw [hbefore entry hentry]
  · simp only [List.zipIdx_singleton, List.filter_singleton, Nat.zero_add, List.take_left]
    split
    · case isTrue hold =>
        obtain ⟨earlier, hearlier, hkey⟩ := hold
        have hseen : (rows.all fun earlier => decide (eventKey earlier ≠ eventKey row)) = false :=
          List.all_eq_false.mpr ⟨earlier, hearlier, by simp [hkey]⟩
        rw [hseen]
        rfl
    · case isFalse hnew =>
        have hunseen : (rows.all fun earlier => decide (eventKey earlier ≠ eventKey row)) = true :=
          List.all_eq_true.mpr fun earlier hearlier =>
            decide_eq_true fun hkey => hnew ⟨earlier, hearlier, hkey⟩
        rw [hunseen]
        rfl

/-! ## What the pass keeps -/

/-- After `rows` the kept rows are the first occurrences, each with the raw data rows of its event,
and the map knows where each event is kept. -/
structure Deduped (rows : List Row) (state : Deduplication) : Prop where
  first : state.out.map withoutSources = (firstOccurrences rows).map withoutSources
  seen : ∀ key index, state.seen key = some index ↔
    ∃ kept, state.out[index]? = some kept ∧ eventKey kept = key
  covered : ∀ key, (∃ row ∈ rows, eventKey row = key) ↔ ∃ index, state.seen key = some index
  sources : ∀ (index : Nat) (kept : Row), state.out[index]? = some kept →
    kept.sourceDataRows.Separated ∧ ∀ source, source ∈ kept.sourceDataRows.iter ↔
      ∃ row ∈ rows, eventKey row = eventKey kept ∧ source ∈ row.sourceDataRows.iter

@[simp]
theorem eventKey_mergeSources (additional : SourceDataRows) (row : Row) :
    eventKey (mergeSources additional row) = eventKey row := rfl

/-- A row of the longer list is one of the shorter list or the new one. -/
theorem exists_mem_append_singleton {rows : List Row} {row : Row} {P : Row → Prop} :
    (∃ found ∈ rows ++ [row], P found) ↔ (∃ found ∈ rows, P found) ∨ P row := by
  simp only [List.mem_append, List.mem_singleton, or_and_right, exists_or, exists_eq_left]

theorem deduped_nil : Deduped [] ⟨fun _ => none, []⟩ where
  first := rfl
  seen := by simp
  covered := by simp
  sources := by simp

/-- A row of an event that is kept already only adds its raw data rows. -/
theorem Deduped.push_seen {rows : List Row} {state : Deduplication} {row : Row} {index : Nat}
    (h : Deduped rows state) (hrow : row.sourceDataRows.Separated)
    (hseen : state.seen (eventKey row) = some index) : Deduped (rows ++ [row])
      { state with out := state.out.modify index (mergeSources row.sourceDataRows) } := by
  obtain ⟨kept, hkept, hkey⟩ := (h.seen _ _).mp hseen
  have hget : ∀ other : Nat, (state.out.modify index (mergeSources row.sourceDataRows))[other]? =
      if index = other then some (mergeSources row.sourceDataRows kept) else state.out[other]? := by
    intro other
    rw [List.getElem?_modify]
    by_cases hother : index = other
    · subst hother
      simp [hkept]
    · simp [hother]
  constructor
  case first =>
    rw [firstOccurrences_append_singleton, if_pos ((h.covered _).mpr ⟨index, hseen⟩),
      List.append_nil, ← h.first]
    have hbare : ∀ other, withoutSources (mergeSources row.sourceDataRows other) =
        withoutSources other := fun _ => rfl
    exact Library.Loop.map_modify_eq hbare state.out index
  case seen =>
    intro key other
    rw [h.seen, hget]
    by_cases hother : index = other
    · subst hother
      simp [hkept]
    · simp [hother]
  case covered =>
    intro key
    rw [exists_mem_append_singleton, h.covered]
    exact or_iff_left_of_imp fun hsame => ⟨index, hsame ▸ hseen⟩
  case sources =>
    intro other later hlater
    rw [hget] at hlater
    split at hlater
    · case isTrue hsame =>
        obtain rfl := Option.some.inj hlater
        obtain ⟨hseparated, hunion⟩ := h.sources index kept hkept
        refine ⟨hseparated.merge hrow, fun source => ?_⟩
        rw [mergeSources, SourceDataRows.mem_iter_merge hseparated.ordered hrow.ordered, hunion,
          exists_mem_append_singleton]
        exact or_congr_right ⟨fun hsource => ⟨hkey.symm, hsource⟩, And.right⟩
    · case isFalse hother =>
        -- another kept row is of another event
        have hne : eventKey row ≠ eventKey later := fun hsame => hother
          (Option.some.inj (hseen.symm.trans ((h.seen _ other).mpr ⟨later, hlater, hsame.symm⟩)))
        obtain ⟨hseparated, hunion⟩ := h.sources other later hlater
        refine ⟨hseparated, fun source => (hunion source).trans ?_⟩
        rw [exists_mem_append_singleton]
        exact (or_iff_left fun hsource => hne hsource.1).symm

/-- A row of a new event is kept. -/
theorem Deduped.push_new {rows : List Row} {state : Deduplication} {row : Row}
    (h : Deduped rows state) (hrow : row.sourceDataRows.Separated)
    (hnew : state.seen (eventKey row) = none) : Deduped (rows ++ [row])
      { seen := Function.update state.seen (eventKey row) (some state.out.length)
        out := state.out ++ [row] } := by
  have habsent : ∀ earlier ∈ rows, eventKey earlier ≠ eventKey row := by
    intro earlier hearlier hkey
    obtain ⟨index, hindex⟩ := (h.covered _).mp ⟨earlier, hearlier, hkey⟩
    exact absurd (hnew.symm.trans hindex) (by simp)
  -- the kept rows are the old ones and the new row in last place
  have hget : ∀ (index : Nat) (kept : Row), (state.out ++ [row])[index]? = some kept ↔
      state.out[index]? = some kept ∨ index = state.out.length ∧ kept = row := by
    intro index kept
    rw [List.getElem?_append]
    split
    · case isTrue hlt => simp [hlt.ne]
    · case isFalse hge =>
        rw [List.getElem?_eq_none (by omega : state.out.length ≤ index)]
        rw [List.getElem?_singleton]
        split
        · case isTrue hlast =>
            have hindex : index = state.out.length := by omega
            simp [hindex, eq_comm]
        · case isFalse hpast =>
            have hindex : index ≠ state.out.length := by omega
            simp [hindex]
  constructor
  case first =>
    rw [firstOccurrences_append_singleton, if_neg]
    · rw [List.map_append, List.map_append, h.first]
    · rintro ⟨earlier, hearlier, hkey⟩
      exact habsent earlier hearlier hkey
  case seen =>
    intro key index
    dsimp only
    by_cases hkey : key = eventKey row
    · subst hkey
      rw [Function.update_self]
      constructor
      · intro hlast
        exact ⟨row, (hget _ _).mpr (.inr ⟨(Option.some.inj hlast).symm, rfl⟩), rfl⟩
      · rintro ⟨kept, hkept, hsame⟩
        rcases (hget _ _).mp hkept with hold | ⟨rfl, -⟩
        · exact absurd (hnew.symm.trans ((h.seen _ _).mpr ⟨kept, hold, hsame⟩)) (by simp)
        · rfl
    · rw [Function.update_of_ne hkey, h.seen]
      simp only [hget, or_and_right, exists_or]
      refine (or_iff_left ?_).symm
      rintro ⟨kept, ⟨-, rfl⟩, hsame⟩
      exact hkey hsame.symm
  case covered =>
    intro key
    dsimp only
    rw [exists_mem_append_singleton]
    by_cases hkey : key = eventKey row
    · subst hkey
      simp
    · rw [Function.update_of_ne hkey, ← h.covered]
      exact or_iff_left (Ne.symm hkey)
  case sources =>
    intro index kept hkept
    rcases (hget _ _).mp hkept with hold | ⟨-, rfl⟩
    · obtain ⟨hseparated, hunion⟩ := h.sources index kept hold
      have hne : eventKey row ≠ eventKey kept := fun hsame =>
        absurd (hnew.symm.trans ((h.seen _ index).mpr ⟨kept, hold, hsame.symm⟩)) (by simp)
      refine ⟨hseparated, fun source => (hunion source).trans ?_⟩
      rw [exists_mem_append_singleton]
      exact (or_iff_left fun hsource => hne hsource.1).symm
    · refine ⟨hrow, fun source => ?_⟩
      rw [exists_mem_append_singleton]
      refine ⟨fun hsource => .inr ⟨rfl, hsource⟩, ?_⟩
      rintro (⟨found, hfound, hsame, -⟩ | hsource)
      · exact absurd hsame (habsent found hfound)
      · exact hsource.2

theorem deduped_foldl {rows : List Row} (h : ∀ row ∈ rows, row.sourceDataRows.Separated) :
    Deduped rows (rows.foldl Deduplication.push ⟨fun _ => none, []⟩) := by
  induction rows using List.reverseRecOn with
  | nil => exact deduped_nil
  | append_singleton rows row ih =>
      obtain ⟨hrows, hrow⟩ := List.forall_mem_append.mp h
      have hrow := hrow row (List.mem_singleton_self row)
      rw [List.foldl_append, List.foldl_cons, List.foldl_nil, Deduplication.push]
      split
      · case h_1 index hseen => exact (ih hrows).push_seen hrow hseen
      · case h_2 hnew => exact (ih hrows).push_new hrow hnew

/-! ## The kept rows -/

/-- Each event is kept once. -/
theorem Deduped.nodup {rows : List Row} {state : Deduplication} (h : Deduped rows state) :
    (state.out.map eventKey).Nodup := by
  refine List.nodup_iff_injective_get.mpr fun i j hij => ?_
  have hat : ∀ place : Fin (state.out.map eventKey).length,
      state.seen ((state.out.map eventKey).get place) = some place.1 := by
    intro place
    have hplace : place.1 < state.out.length := by simpa using place.2
    exact (h.seen _ _).mpr ⟨state.out[place.1], List.getElem?_eq_getElem hplace, by simp⟩
  exact Fin.ext (Option.some.inj ((hat i).symm.trans (hij ▸ hat j)))

/-- Rows of different events are all kept as they are. -/
theorem dedupeExactRows_of_nodup {rows : List Row} (h : (rows.map eventKey).Nodup) :
    dedupeExactRows rows = rows := by
  suffices hstate : (rows.foldl Deduplication.push ⟨fun _ => none, []⟩).out = rows ∧
      ∀ key, key ∉ rows.map eventKey →
        (rows.foldl Deduplication.push ⟨fun _ => none, []⟩).seen key = none from hstate.1
  induction rows using List.reverseRecOn with
  | nil => exact ⟨rfl, fun _ _ => rfl⟩
  | append_singleton rows row ih =>
      rw [List.map_append, List.map_singleton, List.nodup_append] at h
      obtain ⟨hout, hseen⟩ := ih h.1
      have hnew : eventKey row ∉ rows.map eventKey :=
        fun hmem => h.2.2 _ hmem _ (List.mem_singleton_self _) rfl
      rw [List.foldl_append, List.foldl_cons, List.foldl_nil, Deduplication.push, hseen _ hnew]
      refine ⟨by rw [hout], fun key hkey => ?_⟩
      rw [List.map_append, List.map_singleton, List.mem_append, List.mem_singleton, not_or] at hkey
      dsimp only
      rw [Function.update_of_ne hkey.2, hseen key hkey.1]

/-- What `dedupe_exact_rows` keeps: the first row of each event, once and for all, with exactly the
raw data rows of the event's rows, in separated ranges. -/
structure KeepsFirstRows (rows kept : List Row) : Prop where
  first : kept.map withoutSources = (firstOccurrences rows).map withoutSources
  again : dedupeExactRows kept = kept
  separated : ∀ row ∈ kept, row.sourceDataRows.Separated
  sources : ∀ row ∈ kept, ∀ source, source ∈ row.sourceDataRows.iter ↔
    ∃ found ∈ rows, eventKey found = eventKey row ∧ source ∈ found.sourceDataRows.iter

/-- Rows that hold their raw data rows in separated ranges are deduplicated as they should be. -/
theorem dedupe_exact_rows_keeps_first (rows : List Row)
    (hrows : ∀ row ∈ rows, row.sourceDataRows.Separated) :
    KeepsFirstRows rows (dedupeExactRows rows) := by
  have hdeduped := deduped_foldl hrows
  refine ⟨hdeduped.first, dedupeExactRows_of_nodup hdeduped.nodup, fun row hrow => ?_,
    fun row hrow => ?_⟩
  all_goals obtain ⟨index, hindex⟩ := List.mem_iff_getElem?.mp hrow
  · exact (hdeduped.sources index row hindex).1
  · exact (hdeduped.sources index row hindex).2

/-- Three rows of one event, whose raw data rows meet, overlap and reach the largest number, around
a row of another event. -/
def repeatedRows : List Row :=
  [{ sourceDataRows := [⟨1, 2⟩, ⟨4294967294, 4294967294⟩] }, { participantId := "other" },
    { sourceDataRows := [⟨3, 3⟩] }, { sourceDataRows := [⟨2, 2⟩, ⟨4294967295, 4294967295⟩] }]

example : (dedupeExactRows repeatedRows).map Row.sourceDataRows =
    [[⟨1, 3⟩, ⟨4294967294, 4294967295⟩], []] := by
  simp [repeatedRows, dedupeExactRows, Deduplication.push, mergeSources, eventKey,
    SourceDataRows.merge, joinRanges]

theorem dedupe_exact_rows_keeps_first_repeated :
    KeepsFirstRows repeatedRows (dedupeExactRows repeatedRows) := by
  refine dedupe_exact_rows_keeps_first repeatedRows fun row hrow => ?_
  simp only [repeatedRows, List.mem_cons, List.not_mem_nil, or_false] at hrow
  rcases hrow with rfl | rfl | rfl | rfl
  all_goals exact ⟨by decide, by decide⟩

end Chronicle.Source
