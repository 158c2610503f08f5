import Chronicle.Library.Groups
import Chronicle.Library.Stages
import Chronicle.Matcher.OverlapLayers
import Chronicle.Pipeline.Reconstruction

/-!
# Concurrent usage

The stage splits the usage rows of each participant into primary and secondary pieces. A usage row
without both bounds enters the sweep with the bound 0 in place of the missing one.
-/

namespace Chronicle.Pipeline

open Chronicle.Library Chronicle.Library.Groups Chronicle.Library.StableSort
open Chronicle.Library.Stages Chronicle.Library.Tiling Chronicle.Matcher

/-- The instant lies within the bounds of the row. -/
def Row.covers (row : Row) (t : Int) : Bool :=
  row.startTimestampNs.any (· ≤ t) && row.stopTimestampNs.any (t < ·)

/-- The row has both bounds. -/
def Row.isBounded (row : Row) : Bool := row.startTimestampNs.isSome && row.stopTimestampNs.isSome

/-- The piece is the row but for its bounds, its duration and its layer. -/
def PieceOf (row piece : Row) : Prop :=
  piece = { row with
    startTimestampNs := piece.startTimestampNs
    stopTimestampNs := piece.stopTimestampNs
    durationSeconds := piece.durationSeconds
    durationMinutes := piece.durationMinutes
    concurrentSubintervalFloorBlankApplied := piece.concurrentSubintervalFloorBlankApplied
    usageLayer := piece.usageLayer }

/-- What is to become of one row: a usage row is tiled by its pieces, and any other row stays. -/
structure TiledBy (filteredPackages : List String) (row : Row) (pieces : List Row) : Prop where
  other : isLayered filteredPackages row = false → pieces = [row]
  same : ∀ piece ∈ pieces, PieceOf row piece
  layer : isLayered filteredPackages row = true → ∀ piece ∈ pieces,
    piece.usageLayer = some "primary" ∨ piece.usageLayer = some "secondary"
  tiles : isLayered filteredPackages row = true → ∀ start stop,
    row.startTimestampNs = some start → row.stopTimestampNs = some stop →
      (∀ piece ∈ pieces, piece.isBounded = true) ∧
      (start = stop → ∃ piece, pieces = [piece] ∧
        piece.startTimestampNs = some start ∧ piece.stopTimestampNs = some stop) ∧
      (start ≠ stop → Tiles (fun piece : Row => piece.startTimestampNs.getD 0)
        (fun piece : Row => piece.stopTimestampNs.getD 0) start pieces stop)
  unbounded : isLayered filteredPackages row = true → row.isBounded = false →
    pieces ≠ [] ∧ ∀ piece ∈ pieces, piece.startTimestampNs = row.startTimestampNs ∧
      piece.stopTimestampNs = row.stopTimestampNs

/-- A primary piece of the participant covers the instant. -/
def isPrimaryAt (filteredPackages : List String) (participantId : String) (t : Int) (piece : Row) :
    Bool :=
  isLayered filteredPackages piece && piece.participantId = participantId && piece.covers t &&
    piece.usageLayer = some "primary"

/-- The usage rows are split into layers: every row into its own pieces, every covered instant with
one primary piece, and every participant as if it were alone. -/
structure SegmentedBy (filteredPackages : List String)
    (segment : List Row → Except String (List Row)) (rows out : List Row) : Prop where
  pieces : ∃ parts : List (Row × List Row), (parts.map (·.1)).Perm rows ∧
    out.Perm (parts.flatMap (·.2)) ∧ ∀ part ∈ parts, TiledBy filteredPackages part.1 part.2
  primary : ∀ participantId t, (∃ row ∈ rows, isLayered filteredPackages row = true ∧
    row.participantId = participantId ∧ row.covers t = true) →
      (out.filter (isPrimaryAt filteredPackages participantId t)).length = 1
  alone : ∀ participantId, segment (rows.filter fun row => row.participantId = participantId) =
    .ok (out.filter fun row => row.participantId = participantId)

/-! ## The pieces of a row -/

section Pieces

variable {thresholdNs : Option Int} {apply : Bool} {row : Row} {session : LayeredSession}

@[simp]
theorem layeredRow_startTimestampNs :
    (layeredRow thresholdNs apply row session).startTimestampNs = some session.startNs := by
  unfold layeredRow
  dsimp only
  split <;> rfl

@[simp]
theorem layeredRow_stopTimestampNs :
    (layeredRow thresholdNs apply row session).stopTimestampNs = some session.stopNs := by
  unfold layeredRow
  dsimp only
  split <;> rfl

@[simp]
theorem layeredRow_usageLayer :
    (layeredRow thresholdNs apply row session).usageLayer = some (layerLabel session.layer) := by
  unfold layeredRow
  dsimp only
  split <;> rfl

theorem pieceOf_layeredRow : PieceOf row (layeredRow thresholdNs apply row session) := by
  unfold PieceOf layeredRow
  dsimp only
  split <;> rfl

theorem covers_layeredRow (t : Int) : (layeredRow thresholdNs apply row session).covers t =
    decide (session.startNs ≤ t ∧ t < session.stopNs) := by
  simp [Row.covers]

theorem layerLabel_eq_primary {layer : UsageLayer} :
    layerLabel layer = "primary" ↔ layer = .primary := by
  cases layer <;> simp [layerLabel]

end Pieces

/-! ## The sessions of one participant -/

section Sessions

variable {episodes : List Row} {sessions : List LayeredSession}

/-- The bound 0 stands in for a missing start. -/
def startOf (episodes : List Row) (i : Nat) : Int :=
  (episodes.map fun row => row.startTimestampNs.getD 0).getD i 0

/-- The bound 0 stands in for a missing stop. -/
def stopOf (episodes : List Row) (i : Nat) : Int :=
  (episodes.map fun row => row.stopTimestampNs.getD 0).getD i 0

theorem startOf_eq {i : Nat} (h : i < episodes.length) :
    startOf episodes i = episodes[i].startTimestampNs.getD 0 := by
  rw [startOf, List.getD_eq_getElem?_getD, List.getElem?_map, List.getElem?_eq_getElem h]
  rfl

theorem stopOf_eq {i : Nat} (h : i < episodes.length) :
    stopOf episodes i = episodes[i].stopTimestampNs.getD 0 := by
  rw [stopOf, List.getD_eq_getElem?_getD, List.getElem?_map, List.getElem?_eq_getElem h]
  rfl

/-- The pieces of one session among the rows of a participant. -/
structure SessionPieces (episodes : List Row) (i : Nat) (part : List LayeredSession) : Prop where
  index : ∀ session ∈ part, session.sessionIndex = i
  zero : startOf episodes i = stopOf episodes i →
    part = [⟨i, startOf episodes i, stopOf episodes i, .primary⟩]
  tiles : startOf episodes i < stopOf episodes i →
    Tiles LayeredSession.startNs LayeredSession.stopNs (startOf episodes i) part
      (stopOf episodes i)

/-- An accepted split lists the pieces of the sessions one after another. -/
theorem splitSessions_eq_ok (h : splitSessions episodes = .ok sessions) :
    ∃ parts : List (List LayeredSession), sessions = parts.flatten ∧
      parts.length = episodes.length ∧
      (∀ i part, parts[i]? = some part → startOf episodes i ≤ stopOf episodes i ∧
        SessionPieces episodes i part) ∧
      ∀ t, (∃ i < episodes.length, startOf episodes i ≤ t ∧ t < stopOf episodes i) →
        ∃! session, session ∈ sessions ∧ session.startNs ≤ t ∧ t < session.stopNs ∧
          session.layer = .primary := by
  have hle : ∀ i < (episodes.map fun row => row.startTimestampNs.getD 0).length,
      startOf episodes i ≤ stopOf episodes i := by
    intro i hi
    by_contra hlt
    have hinvalid : ((List.range (episodes.map fun row =>
        row.startTimestampNs.getD 0).length).any fun i => decide ((episodes.map fun row =>
          row.stopTimestampNs.getD 0).getD i 0 < (episodes.map fun row =>
            row.startTimestampNs.getD 0).getD i 0)) = true :=
      List.any_eq_true.mpr ⟨i, List.mem_range.mpr hi, decide_eq_true (not_le.mp hlt)⟩
    rw [splitSessions, splitOverlappingSessions, if_neg (by simp), if_pos hinvalid] at h
    cases h
  obtain ⟨parts, hok, hlength, hparts, hprimary⟩ := split_overlapping_sessions_layers
    (episodes.map fun row => row.startTimestampNs.getD 0)
    (episodes.map fun row => row.stopTimestampNs.getD 0) (by simp) hle
  rw [splitSessions, hok] at h
  obtain rfl := Except.ok.inj h
  rw [List.length_map] at hlength
  refine ⟨parts, rfl, hlength, fun i part hpart => ?_, fun t ht => hprimary t ?_⟩
  · obtain ⟨hi, -⟩ := List.getElem?_eq_some_iff.mp hpart
    obtain ⟨hindex, hzero, hpositive⟩ := hparts i part hpart
    exact ⟨hle i (by simpa [hlength] using hi), hindex, hzero, fun hlt => (hpositive hlt).1⟩
  · obtain ⟨i, hi, hstart, hstop⟩ := ht
    exact ⟨i, by simpa using hi, hstart, hstop⟩

/-- No piece of a session is listed twice. -/
theorem nodup_flatten_parts {parts : List (List LayeredSession)}
    (hparts : ∀ i part, parts[i]? = some part → startOf episodes i ≤ stopOf episodes i ∧
      SessionPieces episodes i part) : parts.flatten.Nodup := by
  refine List.nodup_flatten.mpr ⟨fun part hpart => ?_, ?_⟩
  · obtain ⟨i, hi⟩ := List.mem_iff_getElem?.mp hpart
    obtain ⟨hle, hpieces⟩ := hparts i part hi
    rcases hle.eq_or_lt with heq | hlt
    · rw [hpieces.zero heq]
      exact List.nodup_singleton _
    · refine (hpieces.tiles hlt).pairwise_lower.imp fun hlower heq => ?_
      rw [heq] at hlower
      exact absurd hlower (lt_irrefl _)
  · refine List.pairwise_iff_getElem.mpr fun i j hi hj hij session hfirst hsecond => ?_
    have hindex := (hparts i _ (List.getElem?_eq_getElem hi)).2.index session hfirst
    have hindex' := (hparts j _ (List.getElem?_eq_getElem hj)).2.index session hsecond
    omega

/-- A test that one element of a list without repetitions passes selects that element. -/
theorem length_filter_of_existsUnique {α : Type*} {l : List α} {p : α → Bool} (hnodup : l.Nodup)
    (h : ∃! x, x ∈ l ∧ p x = true) : (l.filter p).length = 1 := by
  obtain ⟨x, ⟨hx, hp⟩, hunique⟩ := h
  have hperm : (l.filter p).Perm [x] := by
    refine (List.perm_ext_iff_of_nodup (hnodup.filter p) (List.nodup_singleton x)).mpr fun y => ?_
    rw [List.mem_filter, List.mem_singleton]
    exact ⟨fun hy => hunique y hy, fun hy => hy ▸ ⟨hx, hp⟩⟩
  rw [hperm.length_eq, List.length_singleton]

end Sessions

/-! ## The stage -/

section Stage

variable {filteredPackages backgroundApps : List String} {rules : ConcurrencyRules}
variable {minimumUsageDuration : Binary64} {rows out : List Row}

/-- The usage rows of one participant. -/
def episodesOf (filteredPackages : List String) (rows : List Row) (participantId : String) :
    List Row :=
  rows.filter fun row => isLayered filteredPackages row && row.participantId = participantId

theorem mem_episodesOf {participantId : String} {row : Row} :
    row ∈ episodesOf filteredPackages rows participantId ↔
      row ∈ rows ∧ isLayered filteredPackages row = true ∧ row.participantId = participantId := by
  simp [episodesOf]

/-- The pieces of a participant are those of its sessions, in the order of the sessions. -/
theorem layerParticipant_eq_ok {participantId : String} {pieces : List Row}
    (h : layerParticipant filteredPackages rules minimumUsageDuration rows participantId =
      .ok pieces) :
    ∃ sessions, splitSessions (episodesOf filteredPackages rows participantId) = .ok sessions ∧
      pieces = sessions.map fun session =>
        layeredRow (minimumDurationThresholdNs minimumUsageDuration)
          rules.applyMinimumToSubintervals
          (rowAt (episodesOf filteredPackages rows participantId) session.sessionIndex)
          session := by
  unfold layerParticipant at h
  obtain ⟨sessions, hsessions, h⟩ := bind_eq_ok.mp h
  exact ⟨sessions, hsessions, (Except.ok.inj h).symm⟩

/-- A bounded usage row is tiled by the pieces of its session. -/
theorem tiledBy_of_sessionPieces {thresholdNs : Option Int} {apply : Bool} {episodes : List Row}
    {i : Nat} {part : List LayeredSession} (hi : i < episodes.length)
    (hlayered : isLayered filteredPackages episodes[i] = true)
    (hbounded : episodes[i].isBounded = true) (hle : startOf episodes i ≤ stopOf episodes i)
    (hpart : SessionPieces episodes i part) :
    TiledBy filteredPackages episodes[i] (part.map (layeredRow thresholdNs apply episodes[i])) where
  other hother := by rw [hlayered] at hother; cases hother
  same piece hpiece := by
    obtain ⟨session, -, rfl⟩ := List.mem_map.mp hpiece
    exact pieceOf_layeredRow
  layer _ piece hpiece := by
    obtain ⟨session, -, rfl⟩ := List.mem_map.mp hpiece
    rw [layeredRow_usageLayer]
    cases session.layer
    · exact .inl rfl
    · exact .inr rfl
  tiles _ start stop hstart hstop := by
    have hstartOf : startOf episodes i = start := by rw [startOf_eq hi, hstart]; rfl
    have hstopOf : stopOf episodes i = stop := by rw [stopOf_eq hi, hstop]; rfl
    refine ⟨fun piece hpiece => ?_, fun heq => ?_, fun hne => ?_⟩
    · obtain ⟨session, -, rfl⟩ := List.mem_map.mp hpiece
      simp [Row.isBounded]
    · rw [hpart.zero (by rw [hstartOf, hstopOf, heq]), hstartOf, hstopOf]
      exact ⟨_, rfl, by simp, by simp⟩
    · rw [← hstartOf, ← hstopOf] at hne ⊢
      rw [tiles_map]
      simpa using hpart.tiles (lt_of_le_of_ne hle hne)
  unbounded _ hnone := by rw [hbounded] at hnone; cases hnone

/-- The pieces of a participant, row by row. -/
theorem exists_parts {participantId : String} {pieces : List Row}
    (h : layerParticipant filteredPackages rules minimumUsageDuration rows participantId =
      .ok pieces) :
    ∃ parts : List (Row × List Row),
      parts.map (·.1) = episodesOf filteredPackages rows participantId ∧
      pieces = parts.flatMap (·.2) ∧
      (∀ part ∈ parts, ∀ piece ∈ part.2, PieceOf part.1 piece) ∧
      ∀ part ∈ parts, part.1.isBounded = true → TiledBy filteredPackages part.1 part.2 := by
  obtain ⟨sessions, hsessions, rfl⟩ := layerParticipant_eq_ok h
  obtain ⟨parts, rfl, hlength, hparts, -⟩ := splitSessions_eq_ok hsessions
  generalize hepisodes : episodesOf filteredPackages rows participantId = episodes at *
  refine ⟨(episodes.zip parts).map fun entry =>
    (entry.1, entry.2.map (layeredRow (minimumDurationThresholdNs minimumUsageDuration)
      rules.applyMinimumToSubintervals entry.1)), ?_, ?_, fun part hpart piece hpiece => ?_,
    fun part hpart hbounded => ?_⟩
  · rw [List.map_map]
    exact List.map_fst_zip hlength.ge
  · rw [List.flatMap_map, List.map_flatten, List.flatMap_def]
    refine congrArg List.flatten (List.ext_getElem (by simp [hlength]) fun i hi hi' => ?_)
    rw [List.getElem_map, List.getElem_map, List.getElem_zip]
    rw [List.length_map] at hi
    -- the session at a place points back at the episode of that place
    have hindex := (hparts i _ (List.getElem?_eq_getElem hi)).2.index
    refine List.map_congr_left fun session hsession => ?_
    rw [hindex session hsession, rowAt, List.getD_eq_getElem?_getD,
      List.getElem?_eq_getElem (hlength ▸ hi)]
    rfl
  · obtain ⟨entry, -, rfl⟩ := List.mem_map.mp hpart
    obtain ⟨session, -, rfl⟩ := List.mem_map.mp hpiece
    exact pieceOf_layeredRow
  · obtain ⟨entry, hentry, rfl⟩ := List.mem_map.mp hpart
    obtain ⟨i, hi, rfl⟩ := List.mem_iff_getElem.mp hentry
    rw [List.length_zip, lt_min_iff] at hi
    rw [List.getElem_zip] at hbounded ⊢
    have hmem : episodes[i] ∈ episodesOf filteredPackages rows participantId := by
      rw [hepisodes]
      exact List.getElem_mem hi.1
    have hlayered := (mem_episodesOf.mp hmem).2.1
    obtain ⟨hle, hpieces⟩ := hparts i _ (List.getElem?_eq_getElem hi.2)
    exact tiledBy_of_sessionPieces hi.1 hlayered hbounded hle hpieces

/-- A participant without usage rows has no pieces. -/
theorem layerParticipant_of_nil {participantId : String}
    (h : episodesOf filteredPackages rows participantId = []) :
    layerParticipant filteredPackages rules minimumUsageDuration rows participantId = .ok [] := by
  unfold episodesOf at h
  unfold layerParticipant
  rw [h]
  rfl

theorem mem_rowParticipants {participantId : String} :
    participantId ∈ rowParticipants rows ↔ ∃ row ∈ rows, row.participantId = participantId := by
  simp [rowParticipants]

theorem nodup_rowParticipants (rows : List Row) : (rowParticipants rows).Nodup :=
  (perm_sortByKey _ _).nodup_iff.mpr (List.nodup_dedup _)

/-- The stage puts the rows it leaves alone and the pieces of every participant in order. -/
theorem segmentConcurrentUsage_eq_ok (hon : rules.modelConcurrentUsage = true)
    (h : segmentConcurrentUsage rows filteredPackages backgroundApps rules minimumUsageDuration =
      .ok out) :
    ∃ pieces : String → List Row,
      (∀ participantId, layerParticipant filteredPackages rules minimumUsageDuration rows
        participantId = .ok (pieces participantId)) ∧
      out = orderAppEpisodes ((rows.filter fun row => !isLayered filteredPackages row) ++
        (rowParticipants (rows.filter (isLayered filteredPackages))).flatMap pieces) := by
  unfold segmentConcurrentUsage at h
  rw [if_neg (by simp [hon])] at h
  obtain ⟨layered, hlayered, h⟩ := bind_eq_ok.mp h
  obtain rfl := Except.ok.inj h
  refine ⟨fun participantId => ((layerParticipant filteredPackages rules minimumUsageDuration rows
    participantId).toOption).getD [], fun participantId => ?_, ?_⟩
  · by_cases hmem : participantId ∈ rowParticipants (rows.filter (isLayered filteredPackages))
    · obtain ⟨pieces, hpieces⟩ := exists_ok_of_mapM_ok hlayered hmem
      dsimp only
      rw [hpieces]
      rfl
    · have hnil : episodesOf filteredPackages rows participantId = [] := by
        refine List.filter_eq_nil_iff.mpr fun row hrow hkeep => hmem ?_
        obtain ⟨hisLayered, hparticipant⟩ := Bool.and_eq_true_iff.mp hkeep
        exact mem_rowParticipants.mpr ⟨row, List.mem_filter.mpr ⟨hrow, hisLayered⟩,
          of_decide_eq_true hparticipant⟩
      dsimp only
      rw [layerParticipant_of_nil hnil]
      rfl
  · rw [List.flatMap_def]
    congr 3
    exact eq_map_of_mapM_ok (fun participantId pieces hok => by rw [hok]; rfl) hlayered

/-- The rows left alone and the usage rows of the participants are all rows. -/
theorem perm_episodesOf (filteredPackages : List String) (rows : List Row) :
    ((rows.filter fun row => !isLayered filteredPackages row) ++
      (rowParticipants (rows.filter (isLayered filteredPackages))).flatMap
        (episodesOf filteredPackages rows)).Perm rows := by
  have hgroups := perm_flatMap_filter Row.participantId
    (nodup_rowParticipants (rows.filter (isLayered filteredPackages)))
    fun row hrow => mem_rowParticipants.mpr ⟨row, hrow, rfl⟩
  have hsame : (fun participantId => (rows.filter (isLayered filteredPackages)).filter fun row =>
      row.participantId = participantId) = episodesOf filteredPackages rows := by
    funext participantId
    rw [List.filter_filter, episodesOf]
    exact List.filter_congr fun row _ => Bool.and_comm _ _
  rw [hsame] at hgroups
  exact (List.perm_append_comm.trans (hgroups.symm.append_right _)).trans
    (List.filter_append_perm _ _)

theorem perm_orderAppEpisodes (rows : List Row) : (orderAppEpisodes rows).Perm rows :=
  perm_sortByKey _ _

/-- Every usage row that comes out has both bounds. -/
theorem isBounded_of_mem (hon : rules.modelConcurrentUsage = true)
    (h : segmentConcurrentUsage rows filteredPackages backgroundApps rules minimumUsageDuration =
      .ok out) {piece : Row} (hpiece : piece ∈ out)
    (hlayered : isLayered filteredPackages piece = true) : piece.isBounded = true := by
  obtain ⟨pieces, hpieces, rfl⟩ := segmentConcurrentUsage_eq_ok hon h
  rcases List.mem_append.mp ((perm_orderAppEpisodes _).mem_iff.mp hpiece) with hother | hmem
  · have hnot := (List.mem_filter.mp hother).2
    rw [hlayered] at hnot
    cases hnot
  · obtain ⟨participantId, -, hmem⟩ := List.mem_flatMap.mp hmem
    obtain ⟨sessions, -, heq⟩ := layerParticipant_eq_ok (hpieces participantId)
    rw [heq] at hmem
    obtain ⟨session, -, rfl⟩ := List.mem_map.mp hmem
    simp [Row.isBounded]

theorem isLayered_of_pieceOf (filteredPackages : List String) {row piece : Row}
    (h : PieceOf row piece) :
    isLayered filteredPackages piece = isLayered filteredPackages row := by
  rw [h]
  rfl

/-- A stage that does as it should finds both bounds on every usage row. -/
theorem isBounded_of_segmentedBy (hon : rules.modelConcurrentUsage = true)
    (h : segmentConcurrentUsage rows filteredPackages backgroundApps rules minimumUsageDuration =
      .ok out) (hpieces : ∃ parts : List (Row × List Row), (parts.map (·.1)).Perm rows ∧
        out.Perm (parts.flatMap (·.2)) ∧ ∀ part ∈ parts, TiledBy filteredPackages part.1 part.2)
    {row : Row} (hrow : row ∈ rows) (hlayered : isLayered filteredPackages row = true) :
    row.isBounded = true := by
  obtain ⟨parts, hrows, hout, hparts⟩ := hpieces
  obtain ⟨part, hpart, rfl⟩ := List.mem_map.mp (hrows.mem_iff.mpr hrow)
  by_contra hunbounded
  obtain ⟨hne, hbounds⟩ := (hparts part hpart).unbounded hlayered (by simpa using hunbounded)
  obtain ⟨piece, hpiece⟩ := List.exists_mem_of_ne_nil _ hne
  have hmem : piece ∈ out := hout.mem_iff.mpr (List.mem_flatMap.mpr ⟨part, hpart, hpiece⟩)
  have hpieceLayered := isLayered_of_pieceOf filteredPackages
    ((hparts part hpart).same piece hpiece)
  have hbounded := isBounded_of_mem hon h hmem (hpieceLayered.trans hlayered)
  rw [Row.isBounded, (hbounds piece hpiece).1, (hbounds piece hpiece).2] at hbounded
  exact hunbounded hbounded

/-- The pieces of bounded usage rows tile them, and other rows stay. -/
theorem exists_parts_of_isBounded (hon : rules.modelConcurrentUsage = true)
    (h : segmentConcurrentUsage rows filteredPackages backgroundApps rules minimumUsageDuration =
      .ok out)
    (hbounded : ∀ row ∈ rows, isLayered filteredPackages row = true → row.isBounded = true) :
    ∃ parts : List (Row × List Row), (parts.map (·.1)).Perm rows ∧
      out.Perm (parts.flatMap (·.2)) ∧ ∀ part ∈ parts, TiledBy filteredPackages part.1 part.2 := by
  obtain ⟨pieces, hpieces, rfl⟩ := segmentConcurrentUsage_eq_ok hon h
  choose parts hrows hout _ htiled using fun participantId =>
    exists_parts (hpieces participantId)
  refine ⟨(rows.filter fun row => !isLayered filteredPackages row).map (fun row => (row, [row])) ++
    (rowParticipants (rows.filter (isLayered filteredPackages))).flatMap parts, ?_, ?_, ?_⟩
  · rw [List.map_append, List.map_map, List.map_flatMap]
    simp only [hrows]
    have hid : ((·.1) ∘ fun row : Row => (row, [row])) = id := rfl
    rw [hid, List.map_id]
    exact perm_episodesOf filteredPackages rows
  · refine (perm_orderAppEpisodes _).trans (.of_eq ?_)
    rw [List.flatMap_append, List.flatMap_map, List.flatMap_assoc]
    simp only [← hout]
    rw [List.flatMap_singleton']
  · intro part hpart
    rcases List.mem_append.mp hpart with hother | hmem
    · obtain ⟨row, hrow, rfl⟩ := List.mem_map.mp hother
      have hnot : isLayered filteredPackages row = false := by
        simpa using (List.mem_filter.mp hrow).2
      refine ⟨fun _ => rfl, fun piece hpiece => ?_, ?_, ?_, ?_⟩
      · rw [List.mem_singleton.mp hpiece]
        rfl
      all_goals
        intro hlayered
        rw [hnot] at hlayered
        cases hlayered
    · obtain ⟨participantId, -, hmem⟩ := List.mem_flatMap.mp hmem
      have hrow : part.1 ∈ episodesOf filteredPackages rows participantId := by
        rw [← hrows participantId]
        exact List.mem_map_of_mem hmem
      obtain ⟨hrow, hlayered, -⟩ := mem_episodesOf.mp hrow
      exact htiled participantId part hmem (hbounded part.1 hrow hlayered)

theorem participantId_of_pieceOf {row piece : Row} (h : PieceOf row piece) :
    piece.participantId = row.participantId := by
  rw [h]

/-- The pieces of a participant carry its name and are usage rows. -/
theorem mem_pieces {participantId : String} {pieces : List Row}
    (h : layerParticipant filteredPackages rules minimumUsageDuration rows participantId =
      .ok pieces) {piece : Row} (hpiece : piece ∈ pieces) :
    isLayered filteredPackages piece = true ∧ piece.participantId = participantId := by
  obtain ⟨parts, hrows, rfl, hsame, -⟩ := exists_parts h
  obtain ⟨part, hpart, hpiece⟩ := List.mem_flatMap.mp hpiece
  have hrow : part.1 ∈ episodesOf filteredPackages rows participantId := by
    rw [← hrows]
    exact List.mem_map_of_mem hpart
  obtain ⟨-, hlayered, hparticipant⟩ := mem_episodesOf.mp hrow
  have hpieceOf := hsame part hpart piece hpiece
  exact ⟨(isLayered_of_pieceOf filteredPackages hpieceOf).trans hlayered,
    (participantId_of_pieceOf hpieceOf).trans hparticipant⟩

/-- Only the participant's own pieces can be its primary pieces. -/
theorem filter_pieces {pieces : String → List Row}
    (hpieces : ∀ participantId, layerParticipant filteredPackages rules minimumUsageDuration rows
      participantId = .ok (pieces participantId)) {participantId : String}
    (hmem : participantId ∈ rowParticipants (rows.filter (isLayered filteredPackages)))
    {p : Row → Bool} (hp : ∀ piece, p piece = true → piece.participantId = participantId) :
    ((rowParticipants (rows.filter (isLayered filteredPackages))).flatMap pieces).filter p =
      (pieces participantId).filter p := by
  refine filter_flatMap_of_mem (nodup_rowParticipants _) hmem fun other _ hne => ?_
  refine List.filter_eq_nil_iff.mpr fun piece hpiece hpass => hne ?_
  exact (mem_pieces (hpieces other) hpiece).2.symm.trans (hp piece hpass)

/-- A covered instant has one primary piece. -/
theorem length_primary (hon : rules.modelConcurrentUsage = true)
    (h : segmentConcurrentUsage rows filteredPackages backgroundApps rules minimumUsageDuration =
      .ok out) {participantId : String} {t : Int} {row : Row} (hrow : row ∈ rows)
    (hlayered : isLayered filteredPackages row = true) (hname : row.participantId = participantId)
    (hcovers : row.covers t = true) :
    (out.filter (isPrimaryAt filteredPackages participantId t)).length = 1 := by
  obtain ⟨pieces, hpieces, rfl⟩ := segmentConcurrentUsage_eq_ok hon h
  have hmem : participantId ∈ rowParticipants (rows.filter (isLayered filteredPackages)) :=
    mem_rowParticipants.mpr ⟨row, List.mem_filter.mpr ⟨hrow, hlayered⟩, hname⟩
  have hothers : (rows.filter fun row => !isLayered filteredPackages row).filter
      (isPrimaryAt filteredPackages participantId t) = [] := by
    refine List.filter_eq_nil_iff.mpr fun other hother hprimary => ?_
    have hnot := (List.mem_filter.mp hother).2
    simp only [isPrimaryAt, Bool.and_eq_true] at hprimary
    rw [hprimary.1.1.1] at hnot
    cases hnot
  rw [((perm_orderAppEpisodes _).filter _).length_eq, List.filter_append, hothers, List.nil_append,
    filter_pieces hpieces hmem fun piece hpass => by
      simp only [isPrimaryAt, Bool.and_eq_true, decide_eq_true_eq] at hpass
      exact hpass.1.1.2]
  obtain ⟨sessions, hsessions, heq⟩ := layerParticipant_eq_ok (hpieces participantId)
  obtain ⟨parts, hflatten, hlength, hparts, hunique⟩ := splitSessions_eq_ok hsessions
  -- the primary pieces are the pieces of the primary sessions
  have hsame : ∀ session ∈ sessions,
      isPrimaryAt filteredPackages participantId t
        (layeredRow (minimumDurationThresholdNs minimumUsageDuration)
          rules.applyMinimumToSubintervals
          (rowAt (episodesOf filteredPackages rows participantId) session.sessionIndex) session) =
      decide (session.startNs ≤ t ∧ t < session.stopNs ∧ session.layer = .primary) := by
    intro session hsession
    have hpiece : layeredRow (minimumDurationThresholdNs minimumUsageDuration)
        rules.applyMinimumToSubintervals
        (rowAt (episodesOf filteredPackages rows participantId) session.sessionIndex) session ∈
        pieces participantId := by
      rw [heq]
      exact List.mem_map_of_mem hsession
    obtain ⟨hpieceLayered, hpieceName⟩ := mem_pieces (hpieces participantId) hpiece
    rw [isPrimaryAt, hpieceLayered, hpieceName, covers_layeredRow, layeredRow_usageLayer]
    simp only [Bool.true_and, decide_true, Option.some.injEq, layerLabel_eq_primary,
      ← Bool.decide_and, and_assoc]
  rw [heq, List.filter_map, List.length_map,
    List.filter_congr (q := fun session => decide (session.startNs ≤ t ∧ t < session.stopNs ∧
      session.layer = .primary)) hsame]
  refine length_filter_of_existsUnique (by rw [hflatten]; exact nodup_flatten_parts hparts) ?_
  obtain ⟨i, hi, hget⟩ := List.mem_iff_getElem.mp
    (mem_episodesOf.mpr ⟨hrow, hlayered, hname⟩)
  have hstart := startOf_eq hi
  have hstop := stopOf_eq hi
  rw [hget] at hstart hstop
  simp only [Row.covers, Bool.and_eq_true, Option.any_eq_true, decide_eq_true_eq] at hcovers
  obtain ⟨⟨start, hstartSome, hle⟩, stop, hstopSome, hlt⟩ := hcovers
  rw [hstartSome] at hstart
  rw [hstopSome] at hstop
  obtain ⟨session, ⟨hsession, hfacts⟩, honly⟩ := hunique t ⟨i, hi, by rw [hstart]; exact hle,
    by rw [hstop]; exact hlt⟩
  exact ⟨session, ⟨hsession, decide_eq_true hfacts⟩, fun other hother =>
    honly other ⟨hother.1, of_decide_eq_true hother.2⟩⟩

/-- A participant's rows are split as if they were alone. -/
theorem segmentConcurrentUsage_alone (hon : rules.modelConcurrentUsage = true)
    (h : segmentConcurrentUsage rows filteredPackages backgroundApps rules minimumUsageDuration =
      .ok out) (participantId : String) :
    segmentConcurrentUsage (rows.filter fun row => row.participantId = participantId)
        filteredPackages backgroundApps rules minimumUsageDuration =
      .ok (out.filter fun row => row.participantId = participantId) := by
  obtain ⟨pieces, hpieces, rfl⟩ := segmentConcurrentUsage_eq_ok hon h
  set own := rows.filter fun row => row.participantId = participantId with hown
  have hnames : ∀ other ∈ rowParticipants (own.filter (isLayered filteredPackages)),
      other = participantId := by
    intro other hother
    obtain ⟨row, hrow, rfl⟩ := mem_rowParticipants.mp hother
    rw [hown, List.filter_filter] at hrow
    simpa using ((Bool.and_eq_true_iff.mp (List.mem_filter.mp hrow).2).2)
  have hsame : layerParticipant filteredPackages rules minimumUsageDuration own participantId =
      .ok (pieces participantId) := by
    rw [← hpieces participantId]
    unfold layerParticipant
    rw [hown, List.filter_filter]
    simp only [Bool.and_assoc, Bool.and_self]
  have hmapM := mapM_eq_ok_map fun other hother =>
    (congrArg _ (hnames other hother)).trans (hsame.trans
      (congrArg (fun name => Except.ok (pieces name)) (hnames other hother).symm))
  have hothers : (own.filter fun row => !isLayered filteredPackages row) =
      (rows.filter fun row => !isLayered filteredPackages row).filter
        fun row => row.participantId = participantId := by
    rw [hown, List.filter_filter, List.filter_filter]
    exact List.filter_congr fun row _ => Bool.and_comm _ _
  -- either the participant is layered, and then alone in its own rows, or it has no pieces at all
  have hpieces' : ((rowParticipants (own.filter (isLayered filteredPackages))).map pieces).flatten =
      ((rowParticipants (rows.filter (isLayered filteredPackages))).flatMap pieces).filter
        fun row => row.participantId = participantId := by
    by_cases hmem : participantId ∈ rowParticipants (rows.filter (isLayered filteredPackages))
    · have hone : rowParticipants (own.filter (isLayered filteredPackages)) = [participantId] := by
        refine List.perm_singleton.mp ((List.perm_ext_iff_of_nodup (nodup_rowParticipants _)
          (List.nodup_singleton _)).mpr fun other => ?_)
        rw [List.mem_singleton]
        refine ⟨hnames other, ?_⟩
        rintro rfl
        obtain ⟨row, hrow, hname⟩ := mem_rowParticipants.mp hmem
        obtain ⟨hrow, hlayered⟩ := List.mem_filter.mp hrow
        exact mem_rowParticipants.mpr ⟨row, List.mem_filter.mpr
          ⟨List.mem_filter.mpr ⟨hrow, decide_eq_true hname⟩, hlayered⟩, hname⟩
      rw [hone, List.map_singleton, List.flatten_singleton,
        filter_pieces hpieces hmem fun piece hpass => of_decide_eq_true hpass]
      refine (List.filter_eq_self.mpr fun piece hpiece => decide_eq_true ?_).symm
      exact (mem_pieces (hpieces participantId) hpiece).2
    · have hnone : rowParticipants (own.filter (isLayered filteredPackages)) = [] := by
        refine List.eq_nil_iff_forall_not_mem.mpr fun other hother => hmem ?_
        obtain ⟨row, hrow, hname⟩ := mem_rowParticipants.mp hother
        obtain ⟨hrow, hlayered⟩ := List.mem_filter.mp hrow
        rw [← hnames other hother]
        exact mem_rowParticipants.mpr
          ⟨row, List.mem_filter.mpr ⟨(List.mem_filter.mp hrow).1, hlayered⟩, hname⟩
      rw [hnone, List.map_nil, List.flatten_nil, eq_comm, List.filter_eq_nil_iff]
      intro piece hpiece hpass
      obtain ⟨other, hother, hpiece⟩ := List.mem_flatMap.mp hpiece
      have hname := (mem_pieces (hpieces other) hpiece).2
      rw [of_decide_eq_true hpass] at hname
      exact hmem (hname ▸ hother)
  unfold segmentConcurrentUsage
  rw [if_neg (by simp [hon]), hmapM]
  refine congrArg Except.ok ?_
  rw [orderAppEpisodes, orderAppEpisodes, filter_sortByKey_eq, List.filter_append, hothers,
    hpieces']

/-- With concurrency on, the usage rows are split as they should exactly when all of them have both
bounds. -/
theorem segmentedBy_iff_isBounded (hon : rules.modelConcurrentUsage = true)
    (h : segmentConcurrentUsage rows filteredPackages backgroundApps rules minimumUsageDuration =
      .ok out) :
    SegmentedBy filteredPackages
        (segmentConcurrentUsage · filteredPackages backgroundApps rules minimumUsageDuration)
        rows out ↔
      ∀ row ∈ rows, isLayered filteredPackages row = true → row.isBounded = true := by
  constructor
  · intro hsegmented row hrow hlayered
    exact isBounded_of_segmentedBy hon h hsegmented.pieces hrow hlayered
  · intro hbounded
    refine ⟨exists_parts_of_isBounded hon h hbounded, fun participantId t => ?_,
      segmentConcurrentUsage_alone hon h⟩
    rintro ⟨row, hrow, hlayered, hname, hcovers⟩
    exact length_primary hon h hrow hlayered hname hcovers

end Stage

/-- A raw row that the export already calls a usage row. -/
def rawUsageRow : Row where
  participantId := "P1"
  interactionType := appUsage
  appPackageName := "com.example.chat"
  eventTimestampNs := 1772877600000000000

/-- A raw usage row comes out with both bounds at the epoch. -/
theorem rawUsageRow_bounded :
    ∃ rows out, segmentConcurrentUsage rows [] [] { modelConcurrentUsage := true } (.finite 0) =
        .ok out ∧
      ¬ SegmentedBy [] (segmentConcurrentUsage · [] [] { modelConcurrentUsage := true } (.finite 0))
        rows out := by
  have hrun : segmentConcurrentUsage [rawUsageRow] [] [] { modelConcurrentUsage := true }
      (.finite 0) = .ok [layeredRow (minimumDurationThresholdNs (.finite 0)) false rawUsageRow
        ⟨0, 0, 0, .primary⟩] := by rfl
  refine ⟨_, _, hrun, fun hsegmented => ?_⟩
  have hbounded := isBounded_of_segmentedBy rfl hrun hsegmented.pieces
    (List.mem_singleton_self rawUsageRow) rfl
  cases hbounded

/-- An episode of one second. -/
def boundedUsageRow : Row where
  toEpisodeTiming := { startTimestampNs := some 0, stopTimestampNs := some 1000000000 }
  participantId := "P1"
  interactionType := appUsage
  appPackageName := "com.example.chat"

/-- One bounded episode. -/
theorem segmentedBy_iff_isBounded_single :
    SegmentedBy []
        (segmentConcurrentUsage · [] [] { modelConcurrentUsage := true } (.finite 0))
        [boundedUsageRow] [layeredRow (minimumDurationThresholdNs (.finite 0)) false boundedUsageRow
          ⟨0, 0, 1000000000, .primary⟩] ↔
      ∀ row ∈ [boundedUsageRow], isLayered [] row = true → row.isBounded = true :=
  segmentedBy_iff_isBounded rfl (by rfl)

end Chronicle.Pipeline
