import Chronicle.Jcs.Serialized

/-!
# The formatter writes the canonical form

Whatever the value tree, the formatter writes its canonical form. Where the tree is an object, the
captured range holds the canonical form of the member asked for.
-/

namespace Chronicle.Jcs

open Chronicle.Library Chronicle.Library.Bytes Chronicle.Library.LastWins

/-! ## The sorted members -/

theorem mem_sortedMembers {entries : List Entry} {entry : Entry} :
    entry ∈ sortedMembers entries ↔ entry ∈ lastWins Prod.fst entries :=
  StableSort.mem_sortByKey

/-- Every key comes once. -/
theorem nodup_sortedMembers (entries : List Entry) :
    ((sortedMembers entries).map Prod.fst).Nodup :=
  ((StableSort.perm_sortByKey _ _).map Prod.fst).nodup_iff.mpr (map_lastWins Prod.fst entries).2

section Captured

variable (serde : SerdeJson) {members : List (String × Json)} {key : String}

/-- The calls for an object at the outermost level. -/
theorem toVecCapturing_object (members : List (String × Json)) (key : String) :
    toVecCapturing serde (.object members) key =
      .ok (canonical serde.formatFinite (.object members),
        (closeEntries (some (canonicalString key)) true
          (sortedMembers (canonicalMembers serde.formatFinite members))
          ⟨openBrace, none⟩).captured) := by
  obtain ⟨keyStart, hrun⟩ := JcsFormatter.run_object
    (JcsFormatter.adds_members serde true members) (.initial (some (serde.toVec key)))
  unfold toVecCapturing
  rw [serde.calls_object, hrun, serde.toVec_canonical, canonical]
  rfl

/-- The last member with the key is captured. -/
theorem captured_of_last {before after : List (String × Json)} {value : Json}
    (hmembers : members = before ++ (key, value) :: after) (hlast : key ∉ after.map Prod.fst) :
    ∃ range,
      (closeEntries (some (canonicalString key)) true
        (sortedMembers (canonicalMembers serde.formatFinite members))
        ⟨openBrace, none⟩).captured = some range ∧
      Captures (canonical serde.formatFinite (.object members)) range
        (canonical serde.formatFinite value) := by
  have hmem : (key, canonical serde.formatFinite value) ∈
      sortedMembers (canonicalMembers serde.formatFinite members) := by
    rw [mem_sortedMembers, canonicalMembers_eq_map, hmembers, List.map_append, List.map_cons]
    refine mem_lastWins ?_
    rw [List.map_map]
    exact hlast
  obtain ⟨range, hcaptured, hrange⟩ := captured_closeEntries serde rfl hmem
    (nodup_sortedMembers _) true ⟨openBrace, none⟩
  refine ⟨range, hcaptured, ?_⟩
  rw [out_closeEntries] at hrange
  rw [canonical]
  exact hrange.append closeBrace

/-- Without a member of the key nothing is captured. -/
theorem captured_of_absent (habsent : key ∉ members.map Prod.fst) :
    (closeEntries (some (canonicalString key)) true
      (sortedMembers (canonicalMembers serde.formatFinite members))
      ⟨openBrace, none⟩).captured = none := by
  refine captured_closeEntries_of_absent (fun entry hentry hsame => habsent ?_) _ _
  obtain rfl := canonicalString_injective serde (Option.some.inj hsame)
  have hkey := ((map_lastWins Prod.fst _).1 entry.1).mp
    (List.mem_map_of_mem (mem_sortedMembers.mp hentry))
  rw [canonicalMembers_eq_map, List.map_map] at hkey
  exact hkey

end Captured

/-- The formatter writes the canonical form of every value tree, and of an object it captures the
canonical form of the member asked for. -/
theorem to_vec_canonical (serde : SerdeJson) :
    (∀ value, toVec serde value = .ok (canonical serde.formatFinite value)) ∧
      ∀ value key, ∃ captured,
        toVecCapturing serde value key = .ok (canonical serde.formatFinite value, captured) ∧
        ∀ members, value = .object members →
          (∀ before member after, members = before ++ (key, member) :: after →
            key ∉ after.map Prod.fst → ∃ range, captured = some range ∧
              Captures (canonical serde.formatFinite value) range
                (canonical serde.formatFinite member)) ∧
          (key ∉ members.map Prod.fst → captured = none) := by
  constructor
  · intro value
    obtain ⟨keyStart, captured, hrun, -⟩ := JcsFormatter.writes_value serde value (.initial none)
    unfold toVec
    rw [hrun]
    rfl
  · intro value key
    obtain ⟨keyStart, captured, hrun, -⟩ :=
      JcsFormatter.writes_value serde value (.initial (some (serde.toVec key)))
    have hwritten : toVecCapturing serde value key =
        .ok (canonical serde.formatFinite value, captured) := by
      unfold toVecCapturing
      rw [hrun]
      rfl
    refine ⟨captured, hwritten, ?_⟩
    rintro members rfl
    -- both runs are the same one
    have hsame := hwritten.symm.trans (toVecCapturing_object serde members key)
    obtain rfl := (Prod.mk.inj (Except.ok.inj hsame)).2
    exact ⟨fun _ _ _ hmembers hlast => captured_of_last serde hmembers hlast,
      captured_of_absent serde⟩

end Chronicle.Jcs
