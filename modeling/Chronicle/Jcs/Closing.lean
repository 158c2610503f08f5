import Chronicle.Jcs.Keys

/-!
# Closing an object

The ranges that an open object has collected read as its entries. Closing the object sorts the
ranges and takes each key once, and what it writes is the canonical object of the entries; the range
it captures is where the wanted entry went.
-/

namespace Chronicle.Jcs

open Chronicle.Library Chronicle.Library.Bytes Chronicle.Library.LastWins Chronicle.Library.Utf16

/-- A key with the canonical form of its value. -/
abbrev Entry := String × Bytes

/-- The code units of an entry's key. -/
def Entry.units (entry : Entry) : List Nat := utf16 entry.1

/-- The ranges of a member lie in the buffer and hold an entry. -/
structure Reads (buf : Bytes) (member : Member) (entry : Entry) : Prop
    extends HasKey buf member entry.1 where
  value : slice buf member.value = entry.2
  keyEnd : member.key.2 ≤ buf.length
  valueEnd : member.value.2 ≤ buf.length

theorem slice_append {buf : Bytes} {range : Range} (more : Bytes) (h : range.2 ≤ buf.length) :
    slice (buf ++ more) range = slice buf range := by
  unfold slice
  by_cases hstart : range.1 ≤ buf.length
  · rw [List.drop_append_of_le_length hstart, List.take_append_of_le_length]
    rw [List.length_drop]
    omega
  · have hempty : range.2 - range.1 = 0 := by omega
    rw [hempty, List.take_zero, List.take_zero]

/-- What a member reads as is not changed by what is written behind it. -/
theorem Reads.append {buf : Bytes} {member : Member} {entry : Entry} (h : Reads buf member entry)
    (more : Bytes) : Reads (buf ++ more) member entry where
  key := (slice_append more h.keyEnd).trans h.key
  plain := h.plain
  value := (slice_append more h.valueEnd).trans h.value
  keyEnd := by
    rw [List.length_append]
    exact h.keyEnd.trans (Nat.le_add_right _ _)
  valueEnd := by
    rw [List.length_append]
    exact h.valueEnd.trans (Nat.le_add_right _ _)

/-! ## The output -/

/-- `closeMember` for an entry -/
def closeEntry (wanted : Option Bytes) (first : Bool) (entry : Entry)
    (closing : JcsFormatter.Closing) : JcsFormatter.Closing :=
  let out := (if first then closing.out else closing.out ++ utf8 ",") ++ canonicalString entry.1 ++
    utf8 ":"
  { out := out ++ entry.2
    captured :=
      if wanted = some (canonicalString entry.1) then some (out.length, out.length + entry.2.length)
      else closing.captured }

/-- The entries one after the other. -/
def closeEntries (wanted : Option Bytes) :
    Bool → List Entry → JcsFormatter.Closing → JcsFormatter.Closing
  | _, [], closing => closing
  | first, entry :: rest, closing =>
      closeEntries wanted false rest (closeEntry wanted first entry closing)

section Members

variable (serde : SerdeJson) {buf : Bytes} {wanted : Option Bytes}

theorem closeMember_eq {current last : Member} {entry lastEntry : Entry}
    (hcurrent : Reads buf current entry) (hlast : Reads buf last lastEntry)
    (hsame : entry.1 = lastEntry.1) (first : Bool) (closing : JcsFormatter.Closing) :
    JcsFormatter.closeMember buf wanted first current last closing =
      closeEntry wanted first lastEntry closing := by
  unfold JcsFormatter.closeMember closeEntry
  rw [hcurrent.key, hlast.value, hsame]

/-- The loop writes the last entry of each run of equal keys. -/
theorem closeMembers_eq {rest : List Member} {entries : List Entry}
    (hrest : List.Forall₂ (Reads buf) rest entries) :
    ∀ {current last : Member} {entry lastEntry : Entry}, Reads buf current entry →
      Reads buf last lastEntry → entry.1 = lastEntry.1 →
      ∀ (first : Bool) (closing : JcsFormatter.Closing),
        JcsFormatter.closeMembers serde buf wanted first current last rest closing =
          closeEntries wanted first (collapse Entry.units (lastEntry :: entries)) closing := by
  induction hrest with
  | nil =>
      intro current last entry lastEntry hcurrent hlast hsame first closing
      exact closeMember_eq hcurrent hlast hsame first closing
  | @cons next nextEntry rest entries hnext _ ih =>
      intro current last entry lastEntry hcurrent hlast hsame first closing
      have hequal : JcsFormatter.cmpMembers serde buf current next = .eq ↔
          lastEntry.units = nextEntry.units := by
        rw [cmpMembers_eq serde hcurrent.toHasKey hnext.toHasKey, compareUnits_eq_eq, hsame]
        rfl
      unfold JcsFormatter.closeMembers collapse
      simp only [hequal]
      split
      · rename_i hrun
        exact ih hcurrent hnext (hsame.trans (utf16_injective hrun)) first closing
      · rw [ih hnext hnext rfl, closeMember_eq hcurrent hlast hsame]
        rfl

/-- The sorted ranges read as the sorted entries. -/
theorem forall₂_sorted {members : List Member} {entries : List Entry}
    (h : List.Forall₂ (Reads buf) members entries) :
    List.Forall₂ (Reads buf)
      (members.insertionSort fun left right => JcsFormatter.cmpMembers serde buf left right ≠ .gt)
      (StableSort.sortByKey Entry.units entries) :=
  StableSort.forall₂_insertionSort
    (fun hleft hright => by
      rw [cmpMembers_eq serde hleft.toHasKey hright.toHasKey, compareUnits_ne_gt]
      rfl)
    h

theorem collapse_sorted (entries : List Entry) :
    collapse Entry.units (StableSort.sortByKey Entry.units entries) = sortedMembers entries := by
  have hsorted : collapse Entry.units (StableSort.sortByKey Entry.units entries) =
      StableSort.sortByKey Entry.units (lastWins Entry.units entries) := by
    convert collapse_sortByKey Entry.units entries
  rw [hsorted]
  unfold sortedMembers
  rw [← lastWins_comp utf16_injective]
  rfl

/-- A closing object writes its entries in canonical order. -/
theorem closeObject_eq {members : List Member} {entries : List Entry}
    (h : List.Forall₂ (Reads buf) members entries) (captured : Option Range) :
    JcsFormatter.closeObject serde buf wanted members captured =
      let closing := closeEntries wanted true (sortedMembers entries) ⟨openBrace, captured⟩
      { closing with out := closing.out ++ closeBrace } := by
  unfold JcsFormatter.closeObject
  rw [← collapse_sorted]
  cases hsorted : members.insertionSort
      fun left right => JcsFormatter.cmpMembers serde buf left right ≠ .gt with
  | nil =>
      have hnone := forall₂_sorted serde h
      rw [hsorted, List.forall₂_nil_left_iff] at hnone
      rw [hnone]
      rfl
  | cons current rest =>
      have hsome := forall₂_sorted serde h
      rw [hsorted, List.forall₂_cons_left_iff] at hsome
      obtain ⟨entry, entries, hcurrent, hrest, heq⟩ := hsome
      rw [heq]
      dsimp only
      rw [closeMembers_eq serde hrest hcurrent hcurrent rfl]

end Members

/-! ## What is written -/

theorem commaSeparated_cons (part : Bytes) (rest : List Bytes) :
    commaSeparated (part :: rest) = part ++ rest.flatMap fun part => utf8 "," ++ part := by
  induction rest generalizing part with
  | nil => exact (List.append_nil part).symm
  | cons next rest ih => rw [commaSeparated, ih, List.flatMap_cons, List.append_assoc,
      List.append_assoc]

theorem out_closeEntry (wanted : Option Bytes) (first : Bool) (entry : Entry)
    (closing : JcsFormatter.Closing) :
    (closeEntry wanted first entry closing).out =
      (if first then closing.out else closing.out ++ utf8 ",") ++ canonicalMember entry := by
  unfold closeEntry canonicalMember
  dsimp only
  rw [List.append_assoc, List.append_assoc, List.append_assoc]

theorem out_closeEntries_rest (wanted : Option Bytes) (entries : List Entry)
    (closing : JcsFormatter.Closing) :
    (closeEntries wanted false entries closing).out =
      closing.out ++ entries.flatMap fun entry => utf8 "," ++ canonicalMember entry := by
  induction entries generalizing closing with
  | nil => exact (List.append_nil _).symm
  | cons entry rest ih =>
      rw [closeEntries, ih, out_closeEntry, if_neg Bool.false_ne_true, List.flatMap_cons,
        List.append_assoc, List.append_assoc, List.append_assoc]

theorem out_closeEntries (wanted : Option Bytes) (entries : List Entry)
    (closing : JcsFormatter.Closing) :
    (closeEntries wanted true entries closing).out =
      closing.out ++ commaSeparated (entries.map canonicalMember) := by
  cases entries with
  | nil => exact (List.append_nil _).symm
  | cons entry rest =>
      rw [closeEntries, out_closeEntries_rest, out_closeEntry, if_pos rfl, List.map_cons,
        commaSeparated_cons, List.flatMap_map, List.append_assoc]

/-! ## The captured range -/

/-- The range of the output holds the bytes. -/
def Captures (out : Bytes) (range : Range) (bytes : Bytes) : Prop :=
  ∃ before after, out = before ++ bytes ++ after ∧
    range = (before.length, before.length + bytes.length)

theorem Captures.append {out bytes : Bytes} {range : Range} (h : Captures out range bytes)
    (more : Bytes) : Captures (out ++ more) range bytes := by
  obtain ⟨before, after, rfl, hrange⟩ := h
  exact ⟨before, after ++ more, by rw [List.append_assoc], hrange⟩

theorem canonicalString_injective (serde : SerdeJson) : Function.Injective canonicalString := by
  intro text text' h
  have hread := congrArg serde.fromSlice h
  rw [serde.fromSlice_canonical, serde.fromSlice_canonical] at hread
  exact Option.some.inj hread

section Captured

variable {wanted : Option Bytes} {entries : List Entry}

/-- Nothing is captured without an entry of the wanted key. -/
theorem captured_closeEntries_of_absent
    (h : ∀ entry ∈ entries, wanted ≠ some (canonicalString entry.1)) (first : Bool)
    (closing : JcsFormatter.Closing) :
    (closeEntries wanted first entries closing).captured = closing.captured := by
  induction entries generalizing first closing with
  | nil => rfl
  | cons entry rest ih =>
      obtain ⟨hentry, hrest⟩ := List.forall_mem_cons.mp h
      rw [closeEntries, ih hrest]
      exact if_neg hentry

/-- The range captured is that of the wanted entry's value. -/
theorem captured_closeEntries (serde : SerdeJson) {key : String} {value : Bytes}
    (hwanted : wanted = some (canonicalString key)) (hmem : (key, value) ∈ entries)
    (hnodup : (entries.map Prod.fst).Nodup) (first : Bool) (closing : JcsFormatter.Closing) :
    ∃ range, (closeEntries wanted first entries closing).captured = some range ∧
      Captures (closeEntries wanted first entries closing).out range value := by
  induction entries generalizing first closing with
  | nil => exact absurd hmem List.not_mem_nil
  | cons entry rest ih =>
      obtain ⟨hentry, hrest⟩ := List.nodup_cons.mp hnodup
      rw [closeEntries]
      rcases List.mem_cons.mp hmem with rfl | hmem
      · have habsent : ∀ entry ∈ rest, wanted ≠ some (canonicalString entry.1) := by
          intro entry hin hsame
          rw [hwanted, Option.some.injEq] at hsame
          exact hentry (List.mem_map.mpr ⟨entry, hin, (canonicalString_injective serde hsame).symm⟩)
        rw [captured_closeEntries_of_absent habsent, out_closeEntries_rest]
        refine ⟨_, if_pos hwanted, Captures.append ?_ _⟩
        exact ⟨_, [], (List.append_nil _).symm, rfl⟩
      · exact ih hmem hrest false _

end Captured

end Chronicle.Jcs
