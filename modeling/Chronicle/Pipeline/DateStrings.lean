import Mathlib.Tactic.IntervalCases
import Chronicle.Pipeline.Clock

/-!
# Dates told apart

No two days have the same date, and no two dates the same text.
-/

namespace Chronicle.Pipeline

/-! ## Days and dates -/

/-- The day of a date, counted in the eras of `civilDate`. -/
def CivilDate.toDay (date : CivilDate) : Int :=
  let year := if date.month ≤ 2 then date.year - 1 else date.year
  let yearOfEra := year % 400
  let marchMonth := if date.month ≤ 2 then date.month + 9 else date.month - 3
  let dayOfYear := (153 * marchMonth + 2) / 5 + date.day - 1
  year / 400 * 146097 + (365 * yearOfEra + yearOfEra / 4 - yearOfEra / 100 + dayOfYear) - 719468

/-- The years of an era begin at their first days. -/
theorem dayOfYear_bounds {dayOfEra yearOfEra : Int} (hfirst : 0 ≤ dayOfEra)
    (hlast : dayOfEra < 146097) (hyear : yearOfEra =
      (dayOfEra - dayOfEra / 1460 + dayOfEra / 36524 - dayOfEra / 146096) / 365) :
    0 ≤ dayOfEra - (365 * yearOfEra + yearOfEra / 4 - yearOfEra / 100) ∧
      dayOfEra - (365 * yearOfEra + yearOfEra / 4 - yearOfEra / 100) ≤ 365 := by
  obtain ⟨century, hcentury⟩ : ∃ century, century = yearOfEra / 100 := ⟨_, rfl⟩
  obtain ⟨days, hdays⟩ : ∃ days, days = dayOfEra / 36524 := ⟨_, rfl⟩
  obtain ⟨hlow, hhigh⟩ : 0 ≤ century ∧ century ≤ 3 := by omega
  obtain ⟨hnone, hall⟩ : 0 ≤ days ∧ days ≤ 4 := by omega
  rw [← hdays] at hyear
  rw [← hcentury]
  -- the leap days of the era depend on the century by its days and by its years
  interval_cases days <;> interval_cases century <;> omega

/-- The date of a day determines the day. -/
theorem toDay_civilDate (day : Int) : (civilDate day).toDay = day := by
  obtain ⟨dayOfEra, hera⟩ : ∃ dayOfEra, dayOfEra = (day + 719468) % 146097 := ⟨_, rfl⟩
  obtain ⟨year, hyear⟩ : ∃ year, year =
    (dayOfEra - dayOfEra / 1460 + dayOfEra / 36524 - dayOfEra / 146096) / 365 := ⟨_, rfl⟩
  obtain ⟨hfirst, hlast⟩ := dayOfYear_bounds (by omega) (by omega) hyear
  obtain ⟨dayOfYear, hday⟩ : ∃ dayOfYear, dayOfYear =
    dayOfEra - (365 * year + year / 4 - year / 100) := ⟨_, rfl⟩
  obtain ⟨marchMonth, hmarch⟩ : ∃ marchMonth, marchMonth = (5 * dayOfYear + 2) / 153 := ⟨_, rfl⟩
  obtain ⟨month, hmonth⟩ : ∃ month,
    month = if marchMonth < 10 then marchMonth + 3 else marchMonth - 9 := ⟨_, rfl⟩
  have hdate : civilDate day =
      { year := year + (day + 719468) / 146097 * 400 + if month ≤ 2 then 1 else 0
        month := month
        day := dayOfYear - (153 * marchMonth + 2) / 5 + 1 } := by
    simp only [civilDate, hera, hyear, hday, hmarch, hmonth]
  have hrange : 0 ≤ year ∧ year ≤ 399 := by omega
  have hmarchMonth : (if month ≤ 2 then month + 9 else month - 3) = marchMonth := by omega
  have hmarchYear : (if month ≤ 2 then
        year + (day + 719468) / 146097 * 400 + (if month ≤ 2 then 1 else 0) - 1
      else year + (day + 719468) / 146097 * 400 + if month ≤ 2 then 1 else 0) =
      year + (day + 719468) / 146097 * 400 := by
    split <;> omega
  have hyearOfEra : (year + (day + 719468) / 146097 * 400) % 400 = year := by omega
  rw [hdate, CivilDate.toDay]
  dsimp only
  rw [hmarchMonth, hmarchYear, hyearOfEra]
  omega

/-- Months and days of a date are positive. -/
theorem civilDate_positive (day : Int) : 0 < (civilDate day).month ∧ 0 < (civilDate day).day := by
  obtain ⟨dayOfEra, hera⟩ : ∃ dayOfEra, dayOfEra = (day + 719468) % 146097 := ⟨_, rfl⟩
  obtain ⟨year, hyear⟩ : ∃ year, year =
    (dayOfEra - dayOfEra / 1460 + dayOfEra / 36524 - dayOfEra / 146096) / 365 := ⟨_, rfl⟩
  obtain ⟨hfirst, hlast⟩ := dayOfYear_bounds (by omega) (by omega) hyear
  simp only [civilDate, ← hera, ← hyear]
  omega

/-! ## Dates and texts -/

/-- The digits of a number with zeros before them. -/
def paddedDigits (width : Nat) (value : Nat) : List Char :=
  List.replicate (width - (toString value).length) '0' ++ Nat.toDigits 10 value

theorem paddedDigits_injective (width : Nat) : Function.Injective (paddedDigits width) := by
  intro a b h
  have hparsed := congrArg (fun digits => Nat.ofDigitChars 10 digits 0) h
  simpa [paddedDigits, Nat.ofDigitChars_append, Nat.ofDigitChars_replicate_zero] using hparsed

theorem dash_not_mem_paddedDigits (width value : Nat) : '-' ∉ paddedDigits width value := by
  intro h
  rcases List.mem_append.mp h with hzero | hdigit
  · exact absurd (List.eq_of_mem_replicate hzero) (by decide)
  · have hisDigit := Nat.isDigit_of_mem_toDigits (by decide) (by decide) hdigit
    exact absurd hisDigit (by decide)

theorem paddedDigits_ne_nil (width value : Nat) : paddedDigits width value ≠ [] := by
  simp [paddedDigits]

theorem toList_padded_of_nonneg {width : Nat} {value : Int} (h : 0 ≤ value) :
    (padded width value).toList = paddedDigits width value.natAbs := by
  have hsign : ¬ value < 0 := by omega
  simp [padded, paddedDigits, hsign]

theorem toList_padded_of_neg {width : Nat} {value : Int} (h : value < 0) :
    (padded width value).toList = '-' :: paddedDigits (width - 1) value.natAbs := by
  have hwidth : width - (toString value.natAbs).length - "-".length =
      width - 1 - (toString value.natAbs).length := by
    rw [Nat.sub_right_comm]
    rfl
  simpa [padded, paddedDigits, h] using hwidth

/-- A text is divided at its first dash in one way. -/
theorem split_at_dash {first second rest rest' : List Char} (hfirst : '-' ∉ first)
    (hsecond : '-' ∉ second) (h : first ++ '-' :: rest = second ++ '-' :: rest') :
    first = second ∧ rest = rest' := by
  have htake : ∀ {l r : List Char}, '-' ∉ l → (l ++ '-' :: r).takeWhile (· != '-') = l := by
    intro l r hl
    rw [List.takeWhile_append_of_pos fun c hc => bne_iff_ne.mpr (ne_of_mem_of_not_mem hc hl)]
    simp
  obtain rfl : first = second := by rw [← htake (r := rest) hfirst, h, htake hsecond]
  exact ⟨rfl, (List.cons_eq_cons.mp (List.append_cancel_left h)).2⟩

/-- A number that a dash ends is read back from the text. -/
theorem padded_append_dash {width : Nat} {a b : Int} {rest rest' : List Char}
    (h : (padded width a).toList ++ '-' :: rest = (padded width b).toList ++ '-' :: rest') :
    a = b ∧ rest = rest' := by
  have hdash := dash_not_mem_paddedDigits
  have hsigned : ∀ n r r', '-' :: r ≠ paddedDigits width n ++ '-' :: r' := fun n r r' heq =>
    paddedDigits_ne_nil width n (split_at_dash List.not_mem_nil (hdash width n) heq).1.symm
  rcases lt_or_ge a 0 with ha | ha <;> rcases lt_or_ge b 0 with hb | hb
  · rw [toList_padded_of_neg ha, toList_padded_of_neg hb, List.cons_append, List.cons_append,
      List.cons_eq_cons] at h
    obtain ⟨hdigits, hrest⟩ := split_at_dash (hdash _ _) (hdash _ _) h.2
    have habs := paddedDigits_injective _ hdigits
    exact ⟨by omega, hrest⟩
  · rw [toList_padded_of_neg ha, toList_padded_of_nonneg hb] at h
    exact absurd h (hsigned _ _ _)
  · rw [toList_padded_of_nonneg ha, toList_padded_of_neg hb] at h
    exact absurd h.symm (hsigned _ _ _)
  · rw [toList_padded_of_nonneg ha, toList_padded_of_nonneg hb] at h
    obtain ⟨hdigits, hrest⟩ := split_at_dash (hdash _ _) (hdash _ _) h
    have habs := paddedDigits_injective _ hdigits
    exact ⟨by omega, hrest⟩

/-- Different days have different texts. -/
theorem dateString_injective : Function.Injective dateString := by
  intro a b h
  have hlists := congrArg String.toList h
  simp only [dateString, String.toList_append, List.append_assoc] at hlists
  obtain ⟨hyear, hlists⟩ := padded_append_dash hlists
  obtain ⟨hmonth, hlists⟩ := padded_append_dash hlists
  obtain ⟨-, ha⟩ := civilDate_positive a
  obtain ⟨-, hb⟩ := civilDate_positive b
  have hday : (civilDate a).day = (civilDate b).day := by
    rw [toList_padded_of_nonneg ha.le, toList_padded_of_nonneg hb.le] at hlists
    have habs := paddedDigits_injective 2 hlists
    omega
  have hdate : civilDate a = civilDate b := by
    cases hca : civilDate a
    cases hcb : civilDate b
    simp_all
  rw [← toDay_civilDate a, hdate, toDay_civilDate]

end Chronicle.Pipeline
