import Chronicle.Library.Intervals

/-!
# Lit stretches joined over short dark ones

A stretch of time is cut into segments, each lit, dim or dark. A walk along the segments keeps one
interval open: a lit segment begins or extends it, a dim one extends it and a dark one closes it.
The intervals cover the lit instants and those dim ones that no dark instant parts from an earlier
lit one.
-/

namespace Chronicle.Library.Bridging

open Chronicle.Library.Intervals

/-- What a segment does to the open interval. -/
inductive Shade where
  | lit
  | dim
  | dark
deriving DecidableEq, Repr

variable {T : Type*} [LinearOrder T]

/-- The interval open at the cursor, as it stands there. -/
def closed (cursor : T) (begun : Option T) : List (T × T) :=
  begun.toList.map fun left => (left, cursor)

/-- The intervals of the coming segments, each the pair of its end and its shade; `begun` is where
the interval open at the cursor began. -/
def bridge (cursor : T) (begun : Option T) : List (T × Shade) → List (T × T)
  | [] => closed cursor begun
  | (upper, .lit) :: later => bridge upper (some (begun.getD cursor)) later
  | (upper, .dim) :: later => bridge upper begun later
  | (upper, .dark) :: later => closed cursor begun ++ bridge upper none later

/-- Every segment has positive length. -/
def Advancing : T → List (T × Shade) → Prop
  | _, [] => True
  | cursor, (upper, _) :: later => cursor < upper ∧ Advancing upper later

/-- The shade of an instant that is not before the cursor. -/
def shadeAt (segments : List (T × Shade)) (t : T) : Option Shade :=
  (segments.find? fun segment => t < segment.1).map Prod.snd

/-- No instant of the stretch is dark. -/
def NeverDark (segments : List (T × Shade)) (lower upper : T) : Prop :=
  ∀ t, lower ≤ t → t < upper → shadeAt segments t ≠ some .dark

/-- An open interval, or a lit instant, reaches the instant without a dark one in between. -/
def Reached (cursor : T) (begun : Option T) (segments : List (T × Shade)) (t : T) : Prop :=
  (begun.isSome = true ∧ NeverDark segments cursor t) ∨
    ∃ u, cursor ≤ u ∧ u < t ∧ shadeAt segments u = some .lit ∧ NeverDark segments u t

/-- The instant is lit, or dim and reached. -/
def Credited (cursor : T) (begun : Option T) (segments : List (T × Shade)) (t : T) : Prop :=
  shadeAt segments t = some .lit ∨
    shadeAt segments t = some .dim ∧ Reached cursor begun segments t

variable {cursor upper t : T} {begun : Option T} {shade : Shade} {segments later : List (T × Shade)}

@[simp]
theorem shadeAt_nil : shadeAt [] t = none := rfl

theorem shadeAt_cons_of_lt (h : t < upper) : shadeAt ((upper, shade) :: later) t = some shade := by
  simp [shadeAt, h]

theorem shadeAt_cons_of_le (h : upper ≤ t) :
    shadeAt ((upper, shade) :: later) t = shadeAt later t := by
  simp [shadeAt, not_lt.mpr h]

/-- Within the first segment an instant is dark if the segment is. -/
theorem neverDark_cons_of_le (hle : t ≤ upper) (hshade : shade ≠ .dark) (lower : T) :
    NeverDark ((upper, shade) :: later) lower t := by
  intro v _ hv
  rw [shadeAt_cons_of_lt (hv.trans_le hle)]
  simpa using hshade

/-- Beyond the first segment only the later ones count. -/
theorem neverDark_cons_of_ge {lower : T} (hle : upper ≤ lower) :
    NeverDark ((upper, shade) :: later) lower t ↔ NeverDark later lower t := by
  refine forall_congr' fun v => forall_congr' fun hv => ?_
  rw [shadeAt_cons_of_le (hle.trans hv)]

/-- A stretch across the first segment is free of dark instants if the segment is not dark and the
rest of the stretch is free of them. -/
theorem neverDark_cons {lower : T} (hlower : lower < upper) (hupper : upper ≤ t) :
    NeverDark ((upper, shade) :: later) lower t ↔ shade ≠ .dark ∧ NeverDark later upper t := by
  constructor
  · refine fun h => ⟨?_, fun v hv hvt => ?_⟩
    · have hfirst := h lower le_rfl (hlower.trans_le hupper)
      rw [shadeAt_cons_of_lt hlower] at hfirst
      simpa using hfirst
    · have hlater := h v (hlower.le.trans hv) hvt
      rwa [shadeAt_cons_of_le hv] at hlater
  · rintro ⟨hshade, hlater⟩ v hv hvt
    rcases lt_or_ge v upper with hlt | hge
    · exact neverDark_cons_of_le le_rfl hshade lower v hv hlt
    · rw [shadeAt_cons_of_le hge]
      exact hlater v hge hvt

/-- Where the interval open behind a segment began. -/
def carried (cursor : T) (begun : Option T) : Shade → Option T
  | .lit => some (begun.getD cursor)
  | .dim => begun
  | .dark => none

/-- An instant beyond the first segment is reached over it exactly if it is reached from its end
with the interval that the segment leaves open. -/
theorem reached_cons (hcursor : cursor < upper) (hupper : upper ≤ t) :
    Reached cursor begun ((upper, shade) :: later) t ↔
      Reached upper (carried cursor begun shade) later t := by
  unfold Reached
  rw [neverDark_cons hcursor hupper]
  constructor
  · rintro (⟨hbegun, hshade, hlater⟩ | ⟨u, hu, hut, hlit, hdark⟩)
    · left
      refine ⟨?_, hlater⟩
      cases shade with
      | lit => rfl
      | dim => exact hbegun
      | dark => exact absurd rfl hshade
    · rcases lt_or_ge u upper with hlt | hge
      · left
        rw [shadeAt_cons_of_lt hlt, Option.some.injEq] at hlit
        subst hlit
        exact ⟨rfl, ((neverDark_cons hlt hupper).mp hdark).2⟩
      · right
        rw [shadeAt_cons_of_le hge] at hlit
        exact ⟨u, hge, hut, hlit, (neverDark_cons_of_ge hge).mp hdark⟩
  · rintro (⟨hbegun, hlater⟩ | ⟨u, hu, hut, hlit, hdark⟩)
    · cases shade with
      | lit =>
          right
          refine ⟨cursor, le_rfl, hcursor.trans_le hupper, shadeAt_cons_of_lt hcursor, ?_⟩
          exact (neverDark_cons hcursor hupper).mpr ⟨by simp, hlater⟩
      | dim => exact .inl ⟨hbegun, by simp, hlater⟩
      | dark => exact absurd hbegun (by simp [carried])
    · right
      refine ⟨u, hcursor.le.trans hu, hut, ?_, (neverDark_cons_of_ge hu).mpr hdark⟩
      rw [shadeAt_cons_of_le hu]
      exact hlit

theorem credited_cons_of_ge (hcursor : cursor < upper) (hupper : upper ≤ t) :
    Credited cursor begun ((upper, shade) :: later) t ↔
      Credited upper (carried cursor begun shade) later t := by
  unfold Credited
  rw [shadeAt_cons_of_le hupper, reached_cons hcursor hupper]

/-- An instant of the first segment is credited exactly if the segment leaves an interval open. -/
theorem credited_cons_of_lt (hupper : t < upper) :
    Credited cursor begun ((upper, shade) :: later) t ↔
      (carried cursor begun shade).isSome = true := by
  unfold Credited
  rw [shadeAt_cons_of_lt hupper]
  cases shade with
  | lit => simp [carried]
  | dark => simp [carried]
  | dim =>
      have hnever : NeverDark ((upper, .dim) :: later) cursor t :=
        neverDark_cons_of_le hupper.le (by simp) cursor
      constructor
      · rintro (hlit | ⟨-, ⟨hbegun, -⟩ | ⟨u, -, hut, hlit, -⟩⟩)
        · simp at hlit
        · exact hbegun
        · rw [shadeAt_cons_of_lt (hut.trans hupper)] at hlit
          simp at hlit
      · exact fun hbegun => .inr ⟨rfl, .inl ⟨hbegun, hnever⟩⟩

omit [LinearOrder T] in
theorem bridge_cons (shade : Shade) :
    bridge cursor begun ((upper, shade) :: later) =
      (if shade = .dark then closed cursor begun else []) ++
        bridge upper (carried cursor begun shade) later := by
  cases shade <;> simp [bridge, carried, closed]

theorem covers_closed : Covers (closed cursor begun) t ↔ t < cursor ∧ ∃ left ∈ begun, left ≤ t := by
  cases begun <;> simp [Covers, closed, and_comm]

theorem carried_le (hbegun : ∀ left ∈ begun, left ≤ cursor) :
    ∀ left ∈ carried cursor begun shade, left ≤ cursor := by
  intro left hleft
  cases shade with
  | lit =>
      obtain rfl := Option.some.inj hleft
      cases begun with
      | none => exact le_rfl
      | some left => exact hbegun left rfl
  | dim => exact hbegun left hleft
  | dark => exact absurd hleft (by simp [carried])

/-- The open interval covers what lies between its beginning and the cursor, and the segments cover
what is credited. -/
theorem covers_bridge (hadvancing : Advancing cursor segments)
    (hbegun : ∀ left ∈ begun, left ≤ cursor) :
    Covers (bridge cursor begun segments) t ↔
      (t < cursor ∧ ∃ left ∈ begun, left ≤ t) ∨
        cursor ≤ t ∧ Credited cursor begun segments t := by
  induction segments generalizing cursor begun with
  | nil =>
      rw [bridge, covers_closed]
      simp [Credited]
  | cons segment later ih =>
      obtain ⟨upper, shade⟩ := segment
      obtain ⟨hcursor, hlater⟩ := hadvancing
      have hcarried : ∀ left ∈ carried cursor begun shade, left ≤ cursor := carried_le hbegun
      rw [bridge_cons, covers_append,
        ih hlater fun left hleft => (hcarried left hleft).trans hcursor.le]
      -- an interval closed here ends at the cursor
      have hclosed : cursor ≤ t →
          ¬ Covers (if shade = .dark then closed cursor begun else []) t := by
        intro hfrom hcovers
        split at hcovers
        · exact absurd (covers_closed.mp hcovers).1 (not_lt.mpr hfrom)
        · exact absurd hcovers (by simp [Covers])
      rcases lt_or_ge t cursor with hbefore | hfrom
      · -- before the cursor there is only the interval open at it
        have hupper := hbefore.trans hcursor
        simp only [hbefore, not_le.mpr hbefore, hupper, not_le.mpr hupper, true_and, false_and,
          or_false]
        cases shade with
        | dark => simp [carried, covers_closed, hbefore]
        | dim => simp [carried, Covers]
        | lit => cases begun <;> simp [carried, Covers, not_le.mpr hbefore]
      · rw [or_iff_right (hclosed hfrom)]
        rcases lt_or_ge t upper with hinside | hbeyond
        · rw [credited_cons_of_lt hinside]
          simp only [hinside, not_le.mpr hinside, not_lt.mpr hfrom, hfrom, true_and, false_and,
            or_false, false_or, Option.isSome_iff_exists]
          constructor
          · rintro ⟨left, hleft, -⟩
            exact ⟨left, hleft⟩
          · rintro ⟨left, hleft⟩
            exact ⟨left, hleft, (hcarried left hleft).trans hfrom⟩
        · rw [credited_cons_of_ge hcursor hbeyond]
          simp only [hbeyond, not_lt.mpr hbeyond, not_lt.mpr hfrom, hfrom, true_and, false_and,
            false_or]

end Chronicle.Library.Bridging
