import Chronicle.Matcher.CheckedRuns
import Chronicle.Matcher.DenseEquivalence

/-!
# What the fused rule rejects

The call should return an error for arrays of different lengths, a negative proximity or a negative
app code, and a result otherwise. The sorted path sizes its tables from the largest code before
any code is checked, so a stream of negative codes alone sizes them from a negative code.
-/

namespace Chronicle.Matcher

section Contract

variable (a : OpenerArrays) (options : MatchOptions) (proximityNs : Int)

/-- Every array has one cell for each event. -/
def OpenerArrays.LengthsAgree : Prop :=
  a.SameLengths a.nativeResumed ∧ a.eligibleOpener.size = a.len

instance : Decidable a.LengthsAgree := inferInstanceAs (Decidable (_ ∧ _))

/-- The arguments a call should return an error for. -/
def Rejected : Prop :=
  ¬ a.LengthsAgree ∨ proximityNs < 0 ∨ ∃ i < a.len, a.appCode i < 0

/-- The codes that `SparseOpenStarts::new` and the legacy matcher size tables from. -/
def checkedTableCodes : List Int :=
  if a.hasNegativeCode then [] else [a.maxAppCode]

/-- The codes that a call sizes its tables for each app from, in order. -/
def tableCodes : List Int :=
  if a.LengthsAgree then
    if proximityNs < 0 then []
    else if proximityNs = 0 then checkedTableCodes a
    else if timestampsSorted a.timestampNs then a.maxAppCode :: checkedTableCodes a
    else checkedTableCodes a
  else []

/-- The call returns an error for the arguments it should reject and a result for all others. It
never panics, and it sizes no table from a negative code. -/
structure MeetsContract : Prop where
  rejects : (∃ message, checkedOpenersCore a options proximityNs = .error (.error message)) ↔
    Rejected a proximityNs
  returns : ¬ Rejected a proximityNs →
    ∃ indices, checkedOpenersCore a options proximityNs = .ok indices
  panicFree : ∀ message, checkedOpenersCore a options proximityNs ≠ .error (.panicked message)
  tables : ∀ code ∈ tableCodes a proximityNs, 0 ≤ code

end Contract

section Outcomes

variable {a : OpenerArrays} {options : MatchOptions} {proximityNs : Int}

theorem not_nonnegative_iff {a : EventArrays} :
    ¬ a.NonnegativeCodes ↔ ∃ i < a.len, a.appCode i < 0 := by
  simp [EventArrays.NonnegativeCodes]

theorem MeetsContract.of_error {message : String}
    (hresult : checkedOpenersCore a options proximityNs = .error (.error message))
    (hrejected : Rejected a proximityNs) (htables : ∀ code ∈ tableCodes a proximityNs, 0 ≤ code) :
    MeetsContract a options proximityNs where
  rejects := iff_of_true ⟨message, hresult⟩ hrejected
  returns := fun haccepted => absurd hrejected haccepted
  panicFree := fun other hpanic => by simp [hresult] at hpanic
  tables := htables

theorem MeetsContract.of_ok {indices : MatchUpdateIndices}
    (hresult : checkedOpenersCore a options proximityNs = .ok indices)
    (haccepted : ¬ Rejected a proximityNs)
    (htables : ∀ code ∈ tableCodes a proximityNs, 0 ≤ code) :
    MeetsContract a options proximityNs where
  rejects := iff_of_false (fun ⟨message, herror⟩ => by simp [hresult] at herror) haccepted
  returns := fun _ => ⟨indices, hresult⟩
  panicFree := fun other hpanic => by simp [hresult] at hpanic
  tables := htables

/-- A checked table is sized from a largest code that is not negative. -/
theorem checkedTableCodes_nonneg : ∀ code ∈ checkedTableCodes a, 0 ≤ code := by
  unfold checkedTableCodes
  cases hnegative : a.hasNegativeCode with
  | true => simp
  | false =>
      simpa using maxAppCode_nonneg (EventArrays.hasNegativeCode_eq_false.mp hnegative)

/-- The largest code is negative only if there are codes and all are negative. -/
theorem maxAppCode_nonneg_iff {a : EventArrays} :
    0 ≤ a.maxAppCode ↔ a.len = 0 ∨ ∃ i < a.len, 0 ≤ a.appCode i := by
  constructor
  · intro hmax
    by_cases hlen : a.len = 0
    · exact .inl hlen
    · refine .inr ?_
      obtain ⟨code, hcode⟩ : ∃ code, a.appCodes.toList.max? = some code :=
        Option.ne_none_iff_exists'.mp fun hnone => hlen (by
          simpa [EventArrays.len] using List.max?_eq_none_iff.mp hnone)
      obtain ⟨i, hi⟩ := List.mem_iff_getElem?.mp (List.max?_mem hcode)
      have hlt : i < a.len := by
        obtain ⟨hlt, -⟩ := List.getElem?_eq_some_iff.mp hi
        simpa [EventArrays.len] using hlt
      have happ : a.appCode i = code := by
        rw [Array.getElem?_toList] at hi
        rw [EventArrays.appCode, Array.getD_eq_getD_getElem?, hi, Option.getD_some]
      rw [EventArrays.maxAppCode, hcode, Option.getD_some] at hmax
      exact ⟨i, hlt, happ ▸ hmax⟩
  · rintro (hlen | ⟨i, hi, hcode⟩)
    · refine maxAppCode_nonneg fun i hi => ?_
      omega
    · exact hcode.trans (EventArrays.appCode_le_max hi)

/-- Arrays of different lengths are refused before anything else is looked at. -/
theorem openersCore_of_lengths_differ (hlen : ¬ a.LengthsAgree) :
    checkedOpenersCore a options proximityNs = .error lengthError := by
  rw [checkedOpenersCore_eq]
  unfold matchAppUsageUpdateIndicesWithProximityOpenersCore validateLengths
  by_cases hsame : a.SameLengths a.nativeResumed
  · have hopener : a.eligibleOpener.size ≠ a.len := fun heq => hlen ⟨hsame, heq⟩
    simp only [if_pos hsame, if_pos hopener]
    rfl
  · rw [if_neg hsame]
    rfl

/-- With equal lengths the proximity and the order of the timestamps choose the matcher. -/
theorem openersCore_of_lengthsAgree (hlen : a.LengthsAgree) :
    checkedOpenersCore a options proximityNs =
      if proximityNs < 0 then .error (.error "proximity_ns must be non-negative")
      else if proximityNs = 0 then
        matchAppUsageUpdateIndicesCore { a with resumed := a.eligibleOpener } options
      else if timestampsSorted a.timestampNs then
        matchSortedAppUsageUpdateIndicesWithProximity a options proximityNs
      else matchLegacyAppUsageUpdateIndicesWithProximity a options proximityNs := by
  rw [checkedOpenersCore_eq]
  unfold matchAppUsageUpdateIndicesWithProximityOpenersCore validateLengths
  rw [if_pos hlen.1]
  simp only [ok_bind, hlen.2, ne_eq, not_true_eq_false, if_false]
  split <;> rfl

/-- Every matcher returns a result for non-negative codes. -/
theorem meetsContract_of_nonnegative (hlen : a.LengthsAgree) (hproximity : 0 ≤ proximityNs)
    (hcodes : a.NonnegativeCodes) : MeetsContract a options proximityNs := by
  have hmax := maxAppCode_nonneg hcodes
  have haccepted : ¬ Rejected a proximityNs := by
    rintro (hdiffer | hnegative | hcode)
    · exact hdiffer hlen
    · omega
    · exact not_nonnegative_iff.mpr hcode hcodes
  have htables : ∀ code ∈ tableCodes a proximityNs, 0 ≤ code := by
    unfold tableCodes
    rw [if_pos hlen, if_neg (by omega)]
    split
    · exact checkedTableCodes_nonneg
    · split
      · exact List.forall_mem_cons.mpr ⟨hmax, checkedTableCodes_nonneg⟩
      · exact checkedTableCodes_nonneg
  obtain ⟨openStarts, hnew⟩ := SparseOpenStarts.new_ok hcodes
  have hresult : ∃ indices, checkedOpenersCore a options proximityNs = .ok indices := by
    rw [openersCore_of_lengthsAgree hlen, if_neg (by omega)]
    split
    · exact ⟨_, matchSparse_eq ⟨hlen.1.1, hlen.2, hlen.1.2.2⟩ hnew⟩
    · split
      · exact ⟨_, matchSorted_eq hcodes hnew⟩
      · exact ⟨_, matchLegacy_eq hcodes⟩
  exact hresult.elim fun indices hindices => .of_ok hindices haccepted htables

/-- A negative code is refused by the check, unless the sorted path sizes a table from it. -/
theorem meetsContract_of_negative (hlen : a.LengthsAgree) (hproximity : 0 ≤ proximityNs)
    (hcodes : ¬ a.NonnegativeCodes) :
    MeetsContract a options proximityNs ↔
      proximityNs = 0 ∨ timestampsSorted a.timestampNs = false ∨ 0 ≤ a.maxAppCode := by
  have hrejected : Rejected a proximityNs := .inr (.inr (not_nonnegative_iff.mp hcodes))
  have hnegative : a.hasNegativeCode = true := by
    rw [← Bool.not_eq_false, EventArrays.hasNegativeCode_eq_false]
    exact hcodes
  have hnew : SparseOpenStarts.new a.toEventArrays = .error negativeCodeError := by
    rw [SparseOpenStarts.new, if_pos hnegative]
  constructor
  · intro hmeets
    by_contra hfails
    simp only [not_or] at hfails
    obtain ⟨hpositive, hsorted, hmax⟩ := hfails
    -- the one route that sizes its table before it looks at the codes
    have htable : a.maxAppCode ∈ tableCodes a proximityNs := by
      unfold tableCodes
      rw [if_pos hlen, if_neg (by omega), if_neg hpositive, if_pos (by simpa using hsorted)]
      exact List.mem_cons_self
    have hcode := hmeets.tables _ htable
    omega
  · intro hroute
    have herror : checkedOpenersCore a options proximityNs = .error negativeCodeError := by
      rw [openersCore_of_lengthsAgree hlen, if_neg (by omega)]
      split
      · unfold matchAppUsageUpdateIndicesCore validateLengths
        rw [if_pos ⟨hlen.1.1, hlen.2, hlen.1.2.2⟩, hnew]
        rfl
      · split
        · have hmax : 0 ≤ a.maxAppCode := by simp_all
          unfold matchSortedAppUsageUpdateIndicesWithProximity
          rw [if_neg (by omega), hnew]
          rfl
        · unfold matchLegacyAppUsageUpdateIndicesWithProximity
          rw [if_pos hnegative]
          rfl
    refine .of_error herror hrejected ?_
    unfold tableCodes
    rw [if_pos hlen, if_neg (by omega)]
    split
    · exact checkedTableCodes_nonneg
    · split
      · exact List.forall_mem_cons.mpr ⟨by simp_all, checkedTableCodes_nonneg⟩
      · exact checkedTableCodes_nonneg

end Outcomes

/-- The call keeps its contract unless every code of a non-empty sorted stream is negative while
the proximity is positive. -/
theorem openers_core_meets_contract_iff (a : OpenerArrays) (options : MatchOptions)
    (proximityNs : Int) :
    MeetsContract a options proximityNs ↔
      ¬ a.LengthsAgree ∨ proximityNs ≤ 0 ∨ timestampsSorted a.timestampNs = false ∨
        a.len = 0 ∨ ∃ i < a.len, 0 ≤ a.appCode i := by
  rw [← maxAppCode_nonneg_iff]
  by_cases hlen : a.LengthsAgree
  · by_cases hproximity : proximityNs < 0
    · have herror : checkedOpenersCore a options proximityNs =
          .error (.error "proximity_ns must be non-negative") := by
        rw [openersCore_of_lengthsAgree hlen, if_pos hproximity]
      have htables : ∀ code ∈ tableCodes a proximityNs, 0 ≤ code := by
        unfold tableCodes
        rw [if_pos hlen, if_pos hproximity]
        exact fun _ hcode => absurd hcode List.not_mem_nil
      exact iff_of_true (.of_error herror (.inr (.inl hproximity)) htables)
        (.inr (.inl hproximity.le))
    · by_cases hcodes : a.NonnegativeCodes
      · exact iff_of_true (meetsContract_of_nonnegative hlen (by omega) hcodes)
          (.inr (.inr (.inr (maxAppCode_nonneg hcodes))))
      · rw [meetsContract_of_negative hlen (by omega) hcodes]
        have hzero : proximityNs ≤ 0 ↔ proximityNs = 0 := by omega
        simp [hlen, hzero]
  · have htables : ∀ code ∈ tableCodes a proximityNs, 0 ≤ code := by
      unfold tableCodes
      rw [if_neg hlen]
      exact fun _ hcode => absurd hcode List.not_mem_nil
    exact iff_of_true (.of_error (openersCore_of_lengths_differ hlen) (.inl hlen) htables)
      (.inl hlen)

/-- One event of the app with this code. -/
def lone (code : Int) : OpenerArrays where
  appCodes := #[code]
  timestampNs := #[0]
  sameStop := #[false]
  otherStop := #[false]
  stopped := #[false]
  background := #[false]
  eligibleOpener := #[true]
  nativeResumed := #[true]

/-- A lone negative code makes the sorted path panic, or size its tables with no slot. -/
theorem openers_core_lone_negative_code :
    checkedOpenersCore (lone (-5)) fallbackOptions 1 = .error (.panicked "capacity overflow") ∧
      ¬ MeetsContract (lone (-5)) fallbackOptions 1 ∧
      checkedOpenersCore (lone (-1)) fallbackOptions 1 = .error negativeCodeError ∧
      ¬ MeetsContract (lone (-1)) fallbackOptions 1 := by
  refine ⟨by decide +kernel, fun h => ?_, by decide +kernel, fun h => ?_⟩
  · exact h.panicFree "capacity overflow" (by decide +kernel)
  · exact absurd (h.tables (-1) (by decide +kernel)) (by decide)

end Chronicle.Matcher
