import Mathlib.Data.List.Dedup
import Mathlib.Data.String.Basic
import Chronicle.Library.Groups
import Chronicle.Library.StableSort
import Chronicle.Library.Stages
import Chronicle.Pipeline.Row

/-!
# Moving tied rows apart

Rows of one participant that share a timestamp are moved back in steps of 1 µs, resumes first and
stops last. A row before the tie that stands inside the window the tie is moved through is met or
overtaken.
-/

namespace Chronicle.Source

open Chronicle.Library Chronicle.Library.Groups Chronicle.Library.Machine
open Chronicle.Library.StableSort Chronicle.Pipeline

/-- The spelling under which a row is looked up among the stop types. -/
def normalizedStopType (it : String) : String :=
  if it = "Screen Non-interactive" then "Screen Non-Interactive" else it

/-- `duplicate_priority` -/
def duplicatePriority (it : String) (stopTypes : List String) : Nat :=
  let normalized := normalizedStopType it
  if normalized = activityResumed then 0
  else if normalized ∈ stopTypes then 2
  else 1

/-- `MaximumDurationRefusalReason::DuplicateTimestampAdjustmentUnrepresentable`, as an execution
error -/
def duplicateTimestampAdjustmentUnrepresentable : String :=
  "pipeline_refused:b06=maximum_duration_duplicate_timestamp_adjustment_unrepresentable"

/-- What the rows of one group share. -/
def duplicateKey (row : Row) : String × Int := (row.participantId, row.eventTimestampNs)

/-- The keys of `groups`, in the order of a `BTreeMap`. -/
def duplicateKeys (rows : List Row) : List (String × Int) :=
  sortByKey toLex (rows.map duplicateKey).dedup

/-- The rows of a group in the order in which they are put, with their places in the group. -/
def duplicateOrder (stopTypes : List String) (block : List Row) : List (Row × Nat) :=
  sortByKey (fun entry => toLex (duplicatePriority entry.1.interactionType stopTypes, entry.2))
    block.zipIdx

/-- How far back a row of a group of `count` rows is moved. -/
def duplicateOffset (count orderedIndex : Nat) : Int := (count - orderedIndex : Nat) * 1000

/-- `edit_temporal().event_timestamp_ns` -/
def withTimestamp (row : Row) (timestampNs : Int) : Row := { row with eventTimestampNs := timestampNs }

@[simp]
theorem withTimestamp_eventTimestampNs (row : Row) (t : Int) :
    (withTimestamp row t).eventTimestampNs = t := rfl

@[simp]
theorem withTimestamp_index (row : Row) (t : Int) : (withTimestamp row t).index = row.index := rfl

@[simp]
theorem withTimestamp_participantId (row : Row) (t : Int) :
    (withTimestamp row t).participantId = row.participantId := rfl

/-- The timestamp of a row after its group is moved apart. -/
def adjustRow (count : Nat) (row : Row) (orderedIndex : Nat) : Except String Row :=
  match checked64 (row.eventTimestampNs - duplicateOffset count orderedIndex) with
  | some adjusted => .ok (withTimestamp row adjusted)
  | none => .error duplicateTimestampAdjustmentUnrepresentable

/-- The loop body of `unalign_duplicate_timestamps` -/
def unalignGroup (stopTypes : List String) (rows : List Row) (indices : List Nat) :
    Except String (List Row) :=
  if 1 < indices.length then do
    let block := indices.filterMap (rows[·]?)
    let updated ← (duplicateOrder stopTypes block).zipIdx.mapM fun entry =>
      adjustRow indices.length entry.1.1 entry.2
    .ok (writeBack rows indices updated)
  else .ok rows

/-- `unalign_duplicate_timestamps` -/
def unalignDuplicateTimestamps (rows : List Row) (sameAppStopTypes otherStopTypes : List String) :
    Except String (List Row) :=
  if rows.length ≤ 1 then .ok rows
  else
    let groups := (duplicateKeys rows).map (positions duplicateKey rows)
    if groups.all fun indices => indices.length = 1 then .ok rows
    else do
      let rows ← groups.foldlM (unalignGroup (sameAppStopTypes ++ otherStopTypes)) rows
      .ok (sortByKey (fun row => toLex (row.eventTimestampNs, row.index)) rows)

/-! ## What moves where -/

/-- A group after it is moved apart. -/
def movedApart (stopTypes : List String) (block : List Row) : List Row :=
  if 1 < block.length then
    (duplicateOrder stopTypes block).zipIdx.map fun entry =>
      withTimestamp entry.1.1
        (entry.1.1.eventTimestampNs - duplicateOffset block.length entry.2)
  else block

section

variable {stopTypes : List String} {rows rows' out : List Row} {indices : List Nat}

theorem adjustRow_eq_ok {count orderedIndex : Nat} {row row' : Row}
    (h : adjustRow count row orderedIndex = .ok row') :
    row' = withTimestamp row (row.eventTimestampNs - duplicateOffset count orderedIndex) := by
  unfold adjustRow at h
  split at h
  · rename_i adjusted hadjusted
    obtain ⟨-, rfl⟩ := checked64_eq_some.mp hadjusted
    exact (Except.ok.inj h).symm
  · cases h

@[simp]
theorem length_duplicateOrder (block : List Row) :
    (duplicateOrder stopTypes block).length = block.length := by
  simp [duplicateOrder]

@[simp]
theorem length_movedApart (block : List Row) :
    (movedApart stopTypes block).length = block.length := by
  unfold movedApart
  split <;> simp

/-- One turn of the loop exchanges a group for the group moved apart. -/
theorem unalignGroup_eq_ok (hnodup : indices.Nodup) (hbound : ∀ i ∈ indices, i < rows.length)
    (h : unalignGroup stopTypes rows indices = .ok rows') :
    (rows' ++ indices.filterMap (rows[·]?)).Perm
        (rows ++ movedApart stopTypes (indices.filterMap (rows[·]?))) ∧
      rows'.length = rows.length ∧ ∀ i ∉ indices, rows'[i]? = rows[i]? := by
  have hlength : (indices.filterMap (rows[·]?)).length = indices.length := by
    rw [List.length_filterMap_eq_countP, List.countP_eq_length]
    intro i hi
    simp [hbound i hi]
  unfold unalignGroup at h
  split at h
  · rename_i hcount
    cases hupdated : (duplicateOrder stopTypes (indices.filterMap (rows[·]?))).zipIdx.mapM
        fun entry => adjustRow indices.length entry.1.1 entry.2 with
    | error message => simp only [hupdated] at h; cases h
    | ok updated =>
        simp only [hupdated] at h
        obtain rfl := Except.ok.inj h
        have hmoved := Stages.eq_map_of_mapM_ok (fun entry row hrow => adjustRow_eq_ok hrow) hupdated
        have hgroup : updated = movedApart stopTypes (indices.filterMap (rows[·]?)) := by
          rw [hmoved, movedApart, if_pos (by rw [hlength]; exact hcount), hlength]
        have hsize : updated.length = indices.length := by
          rw [hgroup, length_movedApart, hlength]
        refine ⟨?_, ?_, fun i hi => getElem?_writeBack hi⟩
        · rw [← hgroup]
          exact writeBack_append_perm hnodup hbound hsize
        · exact length_writeBack
  · rename_i hcount
    obtain rfl := Except.ok.inj h
    refine ⟨?_, rfl, fun _ _ => rfl⟩
    rw [movedApart, if_neg (by rw [hlength]; exact hcount)]

/-- The groups of a list with a key of theirs. -/
def duplicateBlock (rows : List Row) (key : String × Int) : List Row :=
  rows.filter fun row => duplicateKey row = key

/-- The loop exchanges every group for the group moved apart. -/
theorem unalignGroups_eq_ok {keys : List (String × Int)} (hnodup : keys.Nodup) {current : List Row}
    (hlength : current.length = rows.length)
    (hsame : ∀ key ∈ keys, ∀ i ∈ positions duplicateKey rows key, current[i]? = rows[i]?)
    (h : (keys.map (positions duplicateKey rows)).foldlM (unalignGroup stopTypes) current =
      .ok out) :
    (out ++ keys.flatMap (duplicateBlock rows)).Perm
      (current ++ keys.flatMap fun key => movedApart stopTypes (duplicateBlock rows key)) := by
  induction keys generalizing current with
  | nil =>
      obtain rfl := Except.ok.inj h
      exact .refl _
  | cons key keys ih =>
      obtain ⟨hkey, hnodup⟩ := List.nodup_cons.mp hnodup
      rw [List.map_cons, List.foldlM_cons] at h
      cases hgroup : unalignGroup stopTypes current (positions duplicateKey rows key) with
      | error message => rw [hgroup] at h; cases h
      | ok next =>
          rw [hgroup] at h
          have hbound : ∀ i ∈ positions duplicateKey rows key, i < current.length := by
            intro i hi
            obtain ⟨row, hrow, -⟩ := mem_positions.mp hi
            rw [hlength]
            exact (List.getElem?_eq_some_iff.mp hrow).1
          have hblock : (positions duplicateKey rows key).filterMap (current[·]?) =
              duplicateBlock rows key := by
            rw [duplicateBlock, ← map_positions]
            exact List.filterMap_congr (hsame key (by simp))
          -- this group is written back before the later groups, which share no position with it
          obtain ⟨hperm, hnext, helse⟩ := unalignGroup_eq_ok nodup_positions hbound hgroup
          rw [hblock] at hperm
          have hlater := ih hnodup (hnext.trans hlength) (fun other hother i hi => by
            have hne : key ≠ other := fun h => hkey (h ▸ hother)
            rw [helse i fun hmem => disjoint_positions hne hmem hi]
            exact hsame other (List.mem_cons_of_mem _ hother) i hi) h
          rw [List.flatMap_cons, List.flatMap_cons, ← List.append_assoc, ← List.append_assoc]
          calc (out ++ duplicateBlock rows key ++ keys.flatMap (duplicateBlock rows)).Perm
                (out ++ keys.flatMap (duplicateBlock rows) ++ duplicateBlock rows key) := by
                rw [List.append_assoc, List.append_assoc]
                exact List.perm_append_comm.append_left _
            _ |>.Perm (next ++ (keys.flatMap fun key =>
                  movedApart stopTypes (duplicateBlock rows key)) ++ duplicateBlock rows key) :=
                hlater.append_right _
            _ |>.Perm (next ++ duplicateBlock rows key ++ keys.flatMap fun key =>
                  movedApart stopTypes (duplicateBlock rows key)) := by
                rw [List.append_assoc, List.append_assoc]
                exact List.perm_append_comm.append_left _
            _ |>.Perm (current ++ movedApart stopTypes (duplicateBlock rows key) ++
                  keys.flatMap fun key => movedApart stopTypes (duplicateBlock rows key)) :=
                hperm.append_right _

theorem mem_duplicateKeys {key : String × Int} :
    key ∈ duplicateKeys rows ↔ ∃ row ∈ rows, duplicateKey row = key := by
  simp [duplicateKeys]

theorem nodup_duplicateKeys : (duplicateKeys rows).Nodup :=
  (perm_sortByKey _ _).nodup_iff.mpr (List.nodup_dedup _)

theorem perm_duplicateBlocks : rows.Perm ((duplicateKeys rows).flatMap (duplicateBlock rows)) :=
  perm_flatMap_filter duplicateKey nodup_duplicateKeys fun row hrow =>
    mem_duplicateKeys.mpr ⟨row, hrow, rfl⟩

/-- A group of one row stays. -/
theorem flatMap_movedApart_of_single
    (h : ∀ key ∈ duplicateKeys rows, (duplicateBlock rows key).length ≤ 1) :
    ((duplicateKeys rows).flatMap fun key => movedApart stopTypes (duplicateBlock rows key)) =
      (duplicateKeys rows).flatMap (duplicateBlock rows) :=
  List.flatMap_congr fun key hkey => if_neg (by have := h key hkey; omega)

variable {same other : List String}

/-- The result holds the groups moved apart; it is sorted unless there was nothing to move. -/
theorem unalign_eq_ok (h : unalignDuplicateTimestamps rows same other = .ok out) :
    out.Perm ((duplicateKeys rows).flatMap fun key =>
        movedApart (same ++ other) (duplicateBlock rows key)) ∧
      (out = rows ∨ out.Pairwise fun a b => a.eventTimestampNs ≤ b.eventTimestampNs) := by
  unfold unalignDuplicateTimestamps at h
  split at h
  · rename_i hlength
    obtain rfl := Except.ok.inj h
    rw [flatMap_movedApart_of_single fun key _ => (List.length_filter_le _ _).trans hlength]
    exact ⟨perm_duplicateBlocks, .inl rfl⟩
  · simp only at h
    split at h
    · rename_i hall
      obtain rfl := Except.ok.inj h
      rw [flatMap_movedApart_of_single fun key hkey => ?_]
      · exact ⟨perm_duplicateBlocks, .inl rfl⟩
      · have hone := List.all_eq_true.mp hall _ (List.mem_map_of_mem hkey)
        rw [decide_eq_true_eq, length_positions] at hone
        exact hone.le
    · cases hloop : ((duplicateKeys rows).map (positions duplicateKey rows)).foldlM
          (unalignGroup (same ++ other)) rows with
      | error message => rw [hloop] at h; cases h
      | ok apart =>
          rw [hloop] at h
          obtain rfl := Except.ok.inj h
          have hperm := unalignGroups_eq_ok nodup_duplicateKeys rfl (fun _ _ _ _ => rfl) hloop
          refine ⟨?_, .inr ?_⟩
          · refine (perm_sortByKey _ _).trans ?_
            refine (List.perm_append_right_iff ((duplicateKeys rows).flatMap
              (duplicateBlock rows))).mp (hperm.trans ?_)
            exact (List.perm_append_comm.trans (perm_duplicateBlocks.append_left _))
          · refine (pairwise_sortByKey _ _).imp fun {a b} hle => ?_
            rcases Prod.Lex.le_iff.mp hle with hlt | ⟨heq, -⟩
            · exact hlt.le
            · exact heq.le

theorem mem_movedApart {block : List Row} (h : 1 < block.length) {row' : Row} :
    row' ∈ movedApart stopTypes block ↔
      ∃ (place : Nat) (entry : Row × Nat), (duplicateOrder stopTypes block)[place]? = some entry ∧
        row' = withTimestamp entry.1
          (entry.1.eventTimestampNs - duplicateOffset block.length place) := by
  rw [movedApart, if_pos h, List.mem_map]
  constructor
  · rintro ⟨⟨entry, place⟩, hmem, rfl⟩
    exact ⟨place, entry, List.mem_zipIdx_iff_getElem?.mp hmem, rfl⟩
  · rintro ⟨place, entry, hentry, rfl⟩
    exact ⟨(entry, place), List.mem_zipIdx_iff_getElem?.mpr hentry, rfl⟩

theorem mem_of_mem_duplicateOrder {block : List Row} {entry : Row × Nat}
    (h : entry ∈ duplicateOrder stopTypes block) : entry.1 ∈ block :=
  List.fst_mem_of_mem_zipIdx (mem_sortByKey.mp h)

/-- Later places go to rows of later classes. -/
theorem duplicatePriority_le_of_place_le {block : List Row} {first second : Nat}
    {a b : Row × Nat} (ha : (duplicateOrder stopTypes block)[first]? = some a)
    (hb : (duplicateOrder stopTypes block)[second]? = some b) (h : first ≤ second) :
    duplicatePriority a.1.interactionType stopTypes ≤
      duplicatePriority b.1.interactionType stopTypes := by
  rcases h.eq_or_lt with rfl | hlt
  · rw [Option.some.inj (ha.symm.trans hb)]
  · obtain ⟨hfirst, rfl⟩ := List.getElem?_eq_some_iff.mp ha
    obtain ⟨hsecond, rfl⟩ := List.getElem?_eq_some_iff.mp hb
    have hle := List.pairwise_iff_getElem.mp
      (pairwise_sortByKey (fun entry : Row × Nat =>
        toLex (duplicatePriority entry.1.interactionType stopTypes, entry.2)) block.zipIdx)
      first second hfirst hsecond hlt
    rcases Prod.Lex.le_iff.mp hle with hpriority | ⟨hpriority, -⟩
    · exact hpriority.le
    · exact hpriority.le

/-- The number of rows that share a row's participant and timestamp. -/
def tieSize (rows : List Row) (row : Row) : Nat := (duplicateBlock rows (duplicateKey row)).length

theorem tieSize_pos {row : Row} (h : row ∈ rows) : 0 < tieSize rows row :=
  List.length_pos_of_mem (List.mem_filter.mpr ⟨h, by simp⟩)

/-- What the list holds for a row that was not tied. -/
theorem mem_out_of_single (h : unalignDuplicateTimestamps rows same other = .ok out) {row : Row}
    (hrow : row ∈ rows) (hsingle : tieSize rows row = 1) : row ∈ out := by
  refine (unalign_eq_ok h).1.mem_iff.mpr (List.mem_flatMap.mpr ⟨duplicateKey row, ?_, ?_⟩)
  · exact mem_duplicateKeys.mpr ⟨row, hrow, rfl⟩
  · rw [movedApart, if_neg (by unfold tieSize at hsingle; omega)]
    exact List.mem_filter.mpr ⟨hrow, by simp⟩

/-- Every place of a tie is taken by one of its rows. -/
theorem exists_at_place (h : unalignDuplicateTimestamps rows same other = .ok out) {row : Row}
    (hrow : row ∈ rows) (htied : 1 < tieSize rows row) {place : Nat}
    (hplace : place < tieSize rows row) :
    ∃ there ∈ rows, duplicateKey there = duplicateKey row ∧
      withTimestamp there (there.eventTimestampNs - duplicateOffset (tieSize rows row) place) ∈
        out := by
  obtain ⟨entry, hentry⟩ : ∃ entry, (duplicateOrder (same ++ other)
      (duplicateBlock rows (duplicateKey row)))[place]? = some entry :=
    ⟨_, List.getElem?_eq_getElem (by rw [length_duplicateOrder]; exact hplace)⟩
  have hmem := mem_of_mem_duplicateOrder (List.mem_of_getElem? hentry)
  obtain ⟨hthere, hkey⟩ := List.mem_filter.mp hmem
  refine ⟨entry.1, hthere, of_decide_eq_true hkey, ?_⟩
  refine (unalign_eq_ok h).1.mem_iff.mpr (List.mem_flatMap.mpr ⟨duplicateKey row, ?_, ?_⟩)
  · exact mem_duplicateKeys.mpr ⟨row, hrow, rfl⟩
  · exact (mem_movedApart htied).mpr ⟨place, entry, hentry, rfl⟩

/-- The place a tied row takes. -/
structure Placed (stopTypes : List String) (rows : List Row) (row row' : Row) (place : Nat) :
    Prop where
  order : ∃ index, (duplicateOrder stopTypes
    (duplicateBlock rows (duplicateKey row)))[place]? = some (row, index)
  moved : row' = withTimestamp row
    (row.eventTimestampNs - duplicateOffset (tieSize rows row) place)

theorem Placed.lt {row row' : Row} {place : Nat} (h : Placed stopTypes rows row row' place) :
    place < tieSize rows row := by
  obtain ⟨index, hindex⟩ := h.order
  have hlt := (List.getElem?_eq_some_iff.mp hindex).1
  rwa [length_duplicateOrder] at hlt

/-- What became of a row: it stays if it was not tied, and else it takes a place of its tie. -/
theorem placed_of_index_eq (hnumbered : (rows.map (·.index)).Nodup)
    (h : unalignDuplicateTimestamps rows same other = .ok out) {row row' : Row}
    (hrow : row ∈ rows) (hrow' : row' ∈ out) (hindex : row'.index = row.index) :
    (tieSize rows row = 1 ∧ row' = row) ∨
      (1 < tieSize rows row ∧ ∃ place, Placed (same ++ other) rows row row' place) := by
  obtain ⟨key, -, hmoved⟩ := List.mem_flatMap.mp ((unalign_eq_ok h).1.mem_iff.mp hrow')
  have hsame : ∀ {there : Row}, there ∈ duplicateBlock rows key → there.index = row.index →
      there = row ∧ key = duplicateKey row := by
    intro there hthere heq
    obtain ⟨hmem, hkey⟩ := List.mem_filter.mp hthere
    have hrow : there = row := List.inj_on_of_nodup_map hnumbered hmem hrow heq
    exact ⟨hrow, by rw [← hrow]; exact (of_decide_eq_true hkey).symm⟩
  by_cases hcount : 1 < (duplicateBlock rows key).length
  · obtain ⟨place, ⟨there, index⟩, hentry, rfl⟩ := (mem_movedApart hcount).mp hmoved
    have hthere := mem_of_mem_duplicateOrder (List.mem_of_getElem? hentry)
    obtain ⟨rfl, rfl⟩ := hsame hthere hindex
    exact .inr ⟨hcount, place, ⟨index, hentry⟩, rfl⟩
  · rw [movedApart, if_neg hcount] at hmoved
    obtain ⟨rfl, rfl⟩ := hsame hmoved hindex
    have hpos := tieSize_pos hrow
    unfold tieSize at hpos ⊢
    exact .inl ⟨by omega, rfl⟩

theorem exists_of_mem (h : unalignDuplicateTimestamps rows same other = .ok out) {row' : Row}
    (hrow' : row' ∈ out) :
    ∃ row ∈ rows, row'.index = row.index ∧ row'.participantId = row.participantId := by
  obtain ⟨key, -, hmoved⟩ := List.mem_flatMap.mp ((unalign_eq_ok h).1.mem_iff.mp hrow')
  by_cases hcount : 1 < (duplicateBlock rows key).length
  · obtain ⟨place, entry, hentry, rfl⟩ := (mem_movedApart hcount).mp hmoved
    have hthere := mem_of_mem_duplicateOrder (List.mem_of_getElem? hentry)
    exact ⟨entry.1, (List.mem_filter.mp hthere).1, rfl, rfl⟩
  · rw [movedApart, if_neg hcount] at hmoved
    exact ⟨row', (List.mem_filter.mp hmoved).1, rfl, rfl⟩

/-! ## Apart and in order -/

/-- Of two rows at one time, this one is to come first: it is the resume, or the other is a stop. -/
def GoesFirst (stopTypes : List String) (a b : Row) : Prop :=
  (normalizedStopType a.interactionType = activityResumed ∧
      normalizedStopType b.interactionType ≠ activityResumed) ∨
    (normalizedStopType a.interactionType ∉ stopTypes ∧
      normalizedStopType b.interactionType ∈ stopTypes ∧
      normalizedStopType b.interactionType ≠ activityResumed)

theorem duplicatePriority_lt_of_goesFirst {a b : Row} (h : GoesFirst stopTypes a b) :
    duplicatePriority a.interactionType stopTypes <
      duplicatePriority b.interactionType stopTypes := by
  unfold duplicatePriority
  rcases h with ⟨ha, hb⟩ | ⟨ha, hb, hother⟩
  · simp only [ha, if_true, hb, if_false]
    split <;> decide
  · simp only [ha, hb, hother, if_true, if_false]
    split <;> decide

/-- The rows of `rows`, recognised by their numbers, stand apart and in order in `out`. -/
structure MovedApart (stopTypes : List String) (rows out : List Row) : Prop where
  kept : out.length = rows.length ∧ ∀ row ∈ rows, ∃ row' ∈ out,
    row'.index = row.index ∧ withTimestamp row' row.eventTimestampNs = row
  apart : out.Pairwise fun a b =>
    a.participantId = b.participantId → a.eventTimestampNs ≠ b.eventTimestampNs
  listed : (rows.Pairwise fun a b => a.eventTimestampNs ≤ b.eventTimestampNs) →
    out.Pairwise fun a b => a.eventTimestampNs ≤ b.eventTimestampNs
  ordered : ∀ a ∈ rows, ∀ b ∈ rows, a.participantId = b.participantId →
    a.eventTimestampNs < b.eventTimestampNs → ∀ a' ∈ out, ∀ b' ∈ out,
      a'.index = a.index → b'.index = b.index → a'.eventTimestampNs < b'.eventTimestampNs
  ties : ∀ a ∈ rows, ∀ b ∈ rows, a.participantId = b.participantId →
    a.eventTimestampNs = b.eventTimestampNs → GoesFirst stopTypes a b → ∀ a' ∈ out, ∀ b' ∈ out,
      a'.index = a.index → b'.index = b.index → a'.eventTimestampNs < b'.eventTimestampNs
  single : ∀ row ∈ rows, tieSize rows row = 1 → row ∈ out

/-- Every tie stands clear of the rows of its participant before it. -/
def TiesClear (rows : List Row) : Prop :=
  ∀ a ∈ rows, ∀ b ∈ rows, a.participantId = b.participantId →
    a.eventTimestampNs < b.eventTimestampNs → 1 < tieSize rows b →
      (tieSize rows b - if 1 < tieSize rows a then 1 else 0 : Int) * 1000 <
        b.eventTimestampNs - a.eventTimestampNs

theorem duplicateOffset_of_le {count place : Nat} (h : place ≤ count) :
    duplicateOffset count place = (count - place : Int) * 1000 := by
  unfold duplicateOffset
  omega

theorem duplicateKey_eq_iff {a b : Row} : duplicateKey a = duplicateKey b ↔
    a.participantId = b.participantId ∧ a.eventTimestampNs = b.eventTimestampNs := by
  rw [duplicateKey, duplicateKey, Prod.mk.injEq]

theorem tieSize_eq {a b : Row} (h : duplicateKey a = duplicateKey b) :
    tieSize rows a = tieSize rows b := by
  rw [tieSize, tieSize, h]

/-- The row of a later place of a tie comes later. -/
theorem Placed.eventTimestampNs_lt {a b a' b' : Row} {first second : Nat}
    (hkey : duplicateKey a = duplicateKey b) (ha : Placed stopTypes rows a a' first)
    (hb : Placed stopTypes rows b b' second) (h : first < second) :
    a'.eventTimestampNs < b'.eventTimestampNs := by
  have hfirst := ha.lt
  have hsecond := hb.lt
  have hsize := @tieSize_eq rows _ _ hkey
  rw [ha.moved, hb.moved, withTimestamp_eventTimestampNs, withTimestamp_eventTimestampNs,
    duplicateOffset_of_le hfirst.le, duplicateOffset_of_le hsecond.le,
    (duplicateKey_eq_iff.mp hkey).2]
  omega

theorem Placed.goesFirst {a b a' b' : Row} {first second : Nat}
    (hkey : duplicateKey a = duplicateKey b) (ha : Placed stopTypes rows a a' first)
    (hb : Placed stopTypes rows b b' second) (h : GoesFirst stopTypes a b) : first < second := by
  obtain ⟨ia, hia⟩ := ha.order
  obtain ⟨ib, hib⟩ := hb.order
  rw [hkey] at hia
  by_contra hle
  have hpriority := duplicatePriority_le_of_place_le hib hia (not_lt.mp hle)
  exact absurd (duplicatePriority_lt_of_goesFirst h) (not_lt.mpr hpriority)

section Numbered

variable (hnumbered : (rows.map (·.index)).Nodup)
variable (h : unalignDuplicateTimestamps rows same other = .ok out)

include hnumbered h

/-- Two rows of one tie keep apart, in the order of their places. -/
theorem tied_order {a b a' b' : Row} (ha : a ∈ rows) (hb : b ∈ rows)
    (hkey : duplicateKey a = duplicateKey b) (hne : a ≠ b) (ha' : a' ∈ out) (hb' : b' ∈ out)
    (hindexA : a'.index = a.index) (hindexB : b'.index = b.index) :
    ∃ first second, first ≠ second ∧ Placed (same ++ other) rows a a' first ∧
      Placed (same ++ other) rows b b' second := by
  have hsize := @tieSize_eq rows _ _ hkey
  have htied : 1 < tieSize rows a := by
    have hmemA : a ∈ duplicateBlock rows (duplicateKey a) :=
      List.mem_filter.mpr ⟨ha, by simp⟩
    have hmemB : b ∈ duplicateBlock rows (duplicateKey a) :=
      List.mem_filter.mpr ⟨hb, by simp [hkey]⟩
    by_contra hle
    obtain ⟨row, hrow⟩ := List.length_eq_one_iff.mp
      (le_antisymm (not_lt.mp hle) (tieSize_pos ha))
    rw [hrow, List.mem_singleton] at hmemA hmemB
    exact hne (hmemA.trans hmemB.symm)
  rcases placed_of_index_eq hnumbered h ha ha' hindexA with ⟨hone, -⟩ | ⟨-, first, hfirst⟩
  · omega
  rcases placed_of_index_eq hnumbered h hb hb' hindexB with ⟨hone, -⟩ | ⟨-, second, hsecond⟩
  · omega
  refine ⟨first, second, fun heq => hne ?_, hfirst, hsecond⟩
  obtain ⟨ia, hia⟩ := hfirst.order
  obtain ⟨ib, hib⟩ := hsecond.order
  rw [hkey, heq] at hia
  exact congrArg Prod.fst (Option.some.inj (hia.symm.trans hib))

/-- A row of a tie that stands clear does not meet an earlier row. -/
theorem ordered_of_tiesClear (hclear : TiesClear rows) {a b a' b' : Row} (ha : a ∈ rows)
    (hb : b ∈ rows) (hparticipant : a.participantId = b.participantId)
    (hlt : a.eventTimestampNs < b.eventTimestampNs) (ha' : a' ∈ out) (hb' : b' ∈ out)
    (hindexA : a'.index = a.index) (hindexB : b'.index = b.index) :
    a'.eventTimestampNs < b'.eventTimestampNs := by
  -- a tied row is moved back by 1 µs at least, and no row forward
  have hback : a'.eventTimestampNs ≤
      a.eventTimestampNs - (if 1 < tieSize rows a then 1 else 0) * 1000 := by
    rcases placed_of_index_eq hnumbered h ha ha' hindexA with ⟨hone, rfl⟩ | ⟨htied, place, hplace⟩
    · simp [hone]
    · have hbound := hplace.lt
      rw [hplace.moved, withTimestamp_eventTimestampNs, duplicateOffset_of_le hbound.le,
        if_pos htied]
      omega
  rcases placed_of_index_eq hnumbered h hb hb' hindexB with ⟨hone, rfl⟩ | ⟨htied, place, hplace⟩
  · split at hback <;> omega
  · have hroom := hclear a ha b hb hparticipant hlt htied
    have hbound := hplace.lt
    rw [hplace.moved, withTimestamp_eventTimestampNs, duplicateOffset_of_le hbound.le]
    split at hback <;> simp_all <;> omega

omit hnumbered in
/-- A tie that does not stand clear meets or overtakes an earlier row. -/
theorem tiesClear_of_ordered
    (hordered : ∀ a ∈ rows, ∀ b ∈ rows, a.participantId = b.participantId →
      a.eventTimestampNs < b.eventTimestampNs → ∀ a' ∈ out, ∀ b' ∈ out,
        a'.index = a.index → b'.index = b.index → a'.eventTimestampNs < b'.eventTimestampNs) :
    TiesClear rows := by
  intro a ha b hb hparticipant hlt htied
  obtain ⟨b₀, hb₀, hkeyB, hout⟩ := exists_at_place h hb htied (tieSize_pos hb)
  obtain ⟨hpartB, hnsB⟩ := duplicateKey_eq_iff.mp hkeyB
  rw [duplicateOffset_of_le (Nat.zero_le _), hnsB] at hout
  by_cases htiedA : 1 < tieSize rows a
  · obtain ⟨a₀, ha₀, hkeyA, houtA⟩ := exists_at_place h ha htiedA
      (Nat.sub_lt (tieSize_pos ha) Nat.one_pos)
    obtain ⟨hpartA, hnsA⟩ := duplicateKey_eq_iff.mp hkeyA
    rw [duplicateOffset_of_le (by omega), hnsA] at houtA
    have hbetween := hordered a₀ ha₀ b₀ hb₀ (by rw [hpartA, hpartB, hparticipant])
      (by rw [hnsA, hnsB]; exact hlt) _ houtA _ hout rfl rfl
    simp only [withTimestamp_eventTimestampNs] at hbetween
    rw [if_pos htiedA]
    omega
  · have hpos := tieSize_pos ha
    have hbetween := hordered a ha b₀ hb₀ (by rw [hpartB, hparticipant])
      (by rw [hnsB]; exact hlt) a (mem_out_of_single h ha (by omega)) _ hout rfl rfl
    simp only [withTimestamp_eventTimestampNs] at hbetween
    rw [if_neg htiedA]
    omega

end Numbered

/-- A group keeps its row numbers. -/
theorem map_index_movedApart (block : List Row) :
    ((movedApart stopTypes block).map (·.index)).Perm (block.map (·.index)) := by
  unfold movedApart
  split
  · rw [List.map_map]
    have hplaces : (duplicateOrder stopTypes block).zipIdx.map
        ((·.index) ∘ fun entry => withTimestamp entry.1.1
          (entry.1.1.eventTimestampNs - duplicateOffset block.length entry.2)) =
        (duplicateOrder stopTypes block).map fun entry => entry.1.index := by
      conv_rhs => rw [← List.zipIdx_map_fst 0 (duplicateOrder stopTypes block), List.map_map]
      rfl
    have hperm := (perm_sortByKey (fun entry : Row × Nat =>
      toLex (duplicatePriority entry.1.interactionType stopTypes, entry.2)) block.zipIdx).map
      fun entry => entry.1.index
    rw [hplaces]
    refine hperm.trans (List.Perm.of_eq ?_)
    conv_rhs => rw [← List.zipIdx_map_fst 0 block, List.map_map]
    rfl
  · exact .refl _

theorem map_index_of_unalign (h : unalignDuplicateTimestamps rows same other = .ok out) :
    (out.map (·.index)).Perm (rows.map (·.index)) := by
  refine ((unalign_eq_ok h).1.map _).trans (.trans ?_ (perm_duplicateBlocks.map _).symm)
  rw [List.map_flatMap, List.map_flatMap]
  exact List.Perm.flatMap_left _ fun key _ => map_index_movedApart _

theorem exists_moved (h : unalignDuplicateTimestamps rows same other = .ok out) {row : Row}
    (hrow : row ∈ rows) :
    ∃ row' ∈ out, row'.index = row.index ∧ withTimestamp row' row.eventTimestampNs = row := by
  rcases eq_or_lt_of_le (Nat.succ_le_of_lt (tieSize_pos hrow)) with hone | htied
  · exact ⟨row, mem_out_of_single h hrow hone.symm, rfl, rfl⟩
  · have hmem : row ∈ (duplicateOrder (same ++ other)
        (duplicateBlock rows (duplicateKey row))).map (·.1) := by
      have hperm := (perm_sortByKey (fun entry : Row × Nat =>
        toLex (duplicatePriority entry.1.interactionType (same ++ other), entry.2))
        (duplicateBlock rows (duplicateKey row)).zipIdx).map (·.1)
      rw [List.zipIdx_map_fst] at hperm
      exact hperm.mem_iff.mpr (List.mem_filter.mpr ⟨hrow, by simp⟩)
    obtain ⟨entry, hentry, rfl⟩ := List.mem_map.mp hmem
    obtain ⟨place, hplace⟩ := List.mem_iff_getElem?.mp hentry
    refine ⟨_, (unalign_eq_ok h).1.mem_iff.mpr (List.mem_flatMap.mpr
      ⟨duplicateKey entry.1, mem_duplicateKeys.mpr ⟨_, hrow, rfl⟩,
        (mem_movedApart htied).mpr ⟨place, entry, hplace, rfl⟩⟩), rfl, rfl⟩

/-- The rows come out apart and in order exactly when every tie stands clear of the rows of its
participant before it. -/
theorem movedApart_iff_tiesClear (hnumbered : (rows.map (·.index)).Nodup)
    (h : unalignDuplicateTimestamps rows same other = .ok out) :
    MovedApart (same ++ other) rows out ↔ TiesClear rows := by
  refine ⟨fun hmoved => tiesClear_of_ordered h hmoved.ordered, fun hclear => ?_⟩
  have hties : ∀ a ∈ rows, ∀ b ∈ rows, a.participantId = b.participantId →
      a.eventTimestampNs = b.eventTimestampNs → GoesFirst (same ++ other) a b →
      ∀ a' ∈ out, ∀ b' ∈ out, a'.index = a.index → b'.index = b.index →
        a'.eventTimestampNs < b'.eventTimestampNs := by
    intro a ha b hb hparticipant hns hfirst a' ha' b' hb' hindexA hindexB
    have hkey := duplicateKey_eq_iff.mpr ⟨hparticipant, hns⟩
    have hne : a ≠ b := by
      rintro rfl
      exact absurd (duplicatePriority_lt_of_goesFirst hfirst) (lt_irrefl _)
    obtain ⟨first, second, -, hplacedA, hplacedB⟩ :=
      tied_order hnumbered h ha hb hkey hne ha' hb' hindexA hindexB
    exact hplacedA.eventTimestampNs_lt hkey hplacedB (hplacedA.goesFirst hkey hplacedB hfirst)
  have hordered : ∀ a ∈ rows, ∀ b ∈ rows, a.participantId = b.participantId →
      a.eventTimestampNs < b.eventTimestampNs → ∀ a' ∈ out, ∀ b' ∈ out,
      a'.index = a.index → b'.index = b.index → a'.eventTimestampNs < b'.eventTimestampNs :=
    fun a ha b hb hparticipant hlt a' ha' b' hb' =>
      ordered_of_tiesClear hnumbered h hclear ha hb hparticipant hlt ha' hb'
  have hperm := map_index_of_unalign h
  have hlength : out.length = rows.length := by simpa using hperm.length_eq
  have hnumberedOut := hperm.nodup_iff.mpr hnumbered
  refine ⟨⟨hlength, fun row hrow => exists_moved h hrow⟩, ?_, fun hsorted => ?_,
    hordered, hties, fun row hrow hsingle => mem_out_of_single h hrow hsingle⟩
  · refine (List.pairwise_map.mp hnumberedOut).imp_of_mem ?_
    intro a' b' ha' hb' hindex hparticipant
    obtain ⟨a, ha, hindexA, hpartA⟩ := exists_of_mem h ha'
    obtain ⟨b, hb, hindexB, hpartB⟩ := exists_of_mem h hb'
    have hne : a ≠ b := fun heq => hindex (by rw [hindexA, hindexB, heq])
    have hpart : a.participantId = b.participantId := by rw [← hpartA, ← hpartB, hparticipant]
    -- rows of one participant differ in time already or are set apart within their tie
    rcases lt_trichotomy a.eventTimestampNs b.eventTimestampNs with hlt | heq | hlt
    · exact (hordered a ha b hb hpart hlt a' ha' b' hb' hindexA hindexB).ne
    · have hkey := duplicateKey_eq_iff.mpr ⟨hpart, heq⟩
      obtain ⟨first, second, hplaces, hplacedA, hplacedB⟩ :=
        tied_order hnumbered h ha hb hkey hne ha' hb' hindexA hindexB
      rcases hplaces.lt_or_gt with hlt | hlt
      · exact (hplacedA.eventTimestampNs_lt hkey hplacedB hlt).ne
      · exact (hplacedB.eventTimestampNs_lt hkey.symm hplacedA hlt).ne'
    · exact (hordered b hb a ha hpart.symm hlt b' hb' a' ha' hindexB hindexA).ne'
  · rcases (unalign_eq_ok h).2 with rfl | hout
    · exact hsorted
    · exact hout

end

/-- A row of the participant P1 at a number of nanoseconds after 10:00 on 2026-03-07. -/
def timedRow (index : Nat) (interactionType : String) (after : Int) : Row where
  participantId := "P1"
  interactionType
  eventTimestampNs := 1772877600000000000 + after
  index

/-- A resume and a pause at one time, with another event 1 µs before them. -/
def crowdedRows : List Row :=
  [timedRow 0 "User Interaction" (-1000), timedRow 1 "Activity Resumed" 0,
    timedRow 2 "Activity Paused" 0]

/-- The pause is moved onto the event 1 µs before it, and the resume behind that event. -/
theorem tie_meets_earlier_row :
    ∃ rows out, (rows.map (·.index)).Nodup ∧
      unalignDuplicateTimestamps rows ["Activity Paused"] ["Device Shutdown"] = .ok out ∧
      ¬ MovedApart (["Activity Paused"] ++ ["Device Shutdown"]) rows out := by
  refine ⟨crowdedRows, [timedRow 1 "Activity Resumed" (-2000),
    timedRow 0 "User Interaction" (-1000), timedRow 2 "Activity Paused" (-1000)], by decide,
    by rfl, fun hmoved => ?_⟩
  have hapart := hmoved.apart
  simp [timedRow] at hapart

/-- Two tied rows alone. -/
theorem movedApart_iff_tiesClear_two :
    MovedApart (["Activity Paused"] ++ ["Device Shutdown"])
        [timedRow 1 "Activity Paused" 0, timedRow 2 "Activity Resumed" 0]
        [timedRow 2 "Activity Resumed" (-2000), timedRow 1 "Activity Paused" (-1000)] ↔
      TiesClear [timedRow 1 "Activity Paused" 0, timedRow 2 "Activity Resumed" 0] :=
  movedApart_iff_tiesClear (by decide) (by rfl)

end Chronicle.Source
