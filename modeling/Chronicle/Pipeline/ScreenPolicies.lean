import Chronicle.Pipeline.ScreenSkeletons

/-!
# What the screen policies keep

The policies can drop a session or cut it short. Here is when they do neither.
-/

namespace Chronicle.Pipeline

open Chronicle.Library Chronicle.Library.Machine

/-- What a row of the screen output says of its session as an interval: whose it is, when it began and
ended and what it was made of. -/
structure ScreenRow.Spans (row : ScreenRow) (rows : List Row) (close : ScreenSessionClose)
    (stop : Option Int) : Prop where
  participant : row.participantId = close.participantId rows
  start : row.startTimestampNs = some close.state.startTimestampNs
  stop : row.stopTimestampNs = stop
  sources : row.sourceDataRows = close.state.sourceDataRows

/-- A session is cut at the cap by a setting that cuts sessions. -/
def ScreenSessionClose.publishedStop (settings : ScreenSettings) (close : ScreenSessionClose) :
    Option Int :=
  close.stopTimestampNs.map fun stop =>
    if settings.maximumDurationDisposition = .truncate ∧
        settings.overCap close.state.startTimestampNs stop then
      saturate64 (close.state.startTimestampNs + settings.capNs)
    else stop

section Sessions

variable {settings : ScreenSettings} {calendar : Calendar} {appsForcing : String → Option String}
variable {rows : List Row} {keyguard : List Int} {close : ScreenSessionClose}
variable {closes : List ScreenSessionClose}

/-! ## One session -/

/-- The local time columns are no part of the span. -/
theorem populateTimeColumns_span (zone : Option Zone) (row : Row) :
    ((zone.map (populateTimeColumns row)).getD row).participantId = row.participantId ∧
      ((zone.map (populateTimeColumns row)).getD row).startTimestampNs = row.startTimestampNs ∧
      ((zone.map (populateTimeColumns row)).getD row).stopTimestampNs = row.stopTimestampNs ∧
      ((zone.map (populateTimeColumns row)).getD row).sourceDataRows = row.sourceDataRows := by
  cases zone with
  | none => exact ⟨rfl, rfl, rfl, rfl⟩
  | some zone => exact ⟨rfl, rfl, rfl, rfl⟩

theorem spans_sessionRow :
    (sessionRow calendar rows close).Spans rows close close.stopTimestampNs where
  participant := (populateTimeColumns_span _ _).1
  start := (populateTimeColumns_span _ _).2.1
  stop := (populateTimeColumns_span _ _).2.2.1
  sources := (populateTimeColumns_span _ _).2.2.2

theorem toRow_classifySession :
    (classifySession settings keyguard calendar rows appsForcing close).toRow =
      (sessionRow calendar rows close).toRow := by
  unfold classifySession
  split
  · rfl
  · rfl

theorem spans_classifySession :
    (classifySession settings keyguard calendar rows appsForcing close).Spans rows close
      close.stopTimestampNs := by
  have hrow : (sessionRow calendar rows close).Spans rows close close.stopTimestampNs :=
    spans_sessionRow
  obtain ⟨hparticipant, hstart, hstop, hsources⟩ := hrow
  constructor
  · rw [toRow_classifySession, hparticipant]
  · rw [toRow_classifySession, hstart]
  · rw [toRow_classifySession, hstop]
  · rw [toRow_classifySession, hsources]

/-- A session that was unlocked never shows the lock screen alone. -/
theorem lockScreenOnly_classifySession (h : close.state.staysLocked = false) :
    (classifySession settings keyguard calendar rows appsForcing close).screenUsageLockScreenOnly ≠
      some 1 := by
  have hunlocked : ¬ (close.state.lockScreenSeen = true ∧ (!close.state.unlockedSeen) = true ∧
      close.state.appObserved = some false) := by
    rintro ⟨hseen, hlocked, _⟩
    rw [ScreenState.staysLocked, hseen, hlocked] at h
    cases h
  have hreason : ∀ stop forcingLabel tailGap,
      (endReason settings keyguard close stop forcingLabel tailGap).2.2 = 0 := by
    intro stop forcingLabel tailGap
    simp only [endReason, if_neg hunlocked, apply_ite Prod.snd, ite_self]
  unfold classifySession
  split
  · exact fun hone => by cases hone
  · simp only [hreason]
    exact fun hone => by cases hone

/-- The policies change no more of a span than its end. -/
theorem spans_policySession {session : ScreenRow}
    (h : session.Spans rows close close.stopTimestampNs) :
    (policySession settings session).Spans rows close (close.publishedStop settings) := by
  obtain ⟨hparticipant, hstart, hstop, hsources⟩ := h
  unfold policySession ScreenSessionClose.publishedStop
  split
  case isTrue htruncate =>
    simp only [htruncate, true_and]
    unfold truncateSession
    cases hclose : close.stopTimestampNs with
    | none =>
        simp only [hstart, hstop, hclose]
        exact ⟨hparticipant, hstart, hstop.trans hclose, hsources⟩
    | some stop =>
        simp only [hstart, hstop, hclose]
        split
        case isTrue hover =>
          exact ⟨hparticipant, rfl, congrArg some (if_pos hover).symm, hsources⟩
        case isFalse hover =>
          exact ⟨hparticipant, hstart, (hstop.trans hclose).trans
            (congrArg some (if_neg hover).symm), hsources⟩
  case isFalse htruncate =>
    simp only [htruncate, false_and, if_false, Option.map_id']
    exact ⟨hparticipant, hstart, hstop, hsources⟩

theorem publishedStop_eq_iff : close.publishedStop settings = close.stopTimestampNs ↔
    (settings.maximumDurationDisposition = .truncate → ∀ stop ∈ close.stopTimestampNs,
      settings.overCap close.state.startTimestampNs stop = true →
        saturate64 (close.state.startTimestampNs + settings.capNs) = stop) := by
  rw [ScreenSessionClose.publishedStop]
  cases close.stopTimestampNs with
  | none => simp
  | some stop => simp [ite_eq_right_iff]

/-- A session is over the cap as its skeleton is. -/
theorem isOverCap_classifySession :
    (classifySession settings keyguard calendar rows appsForcing close).toRow.isOverCap settings =
      close.stopTimestampNs.any (settings.overCap close.state.startTimestampNs) := by
  have h : (classifySession settings keyguard calendar rows appsForcing close).Spans rows close
      close.stopTimestampNs := spans_classifySession
  rw [Row.isOverCap, h.start, h.stop, Option.any_some]

end Sessions

/-! ## All sessions -/

/-- No policy drops one of the sessions. -/
structure NoneDropped (settings : ScreenSettings) (closes : List ScreenSessionClose) : Prop where
  unlocked : settings.lockedScreenAudioDisposition = .excludeFromPhoneAndAppSessions →
    ∀ close ∈ closes, close.state.staysLocked = false
  within : settings.maximumDurationDisposition = .excludeParticipant → ∀ close ∈ closes,
    close.stopTimestampNs.any (settings.overCap close.state.startTimestampNs) = false

section Table

variable {settings : ScreenSettings} {calendar : Calendar} {appsForcing : String → Option String}
variable {rows : List Row} {closes : List ScreenSessionClose} {sessions : List ScreenRow}

/-- The row that the query publishes of a session. -/
def publishedSession (settings : ScreenSettings) (calendar : Calendar)
    (appsForcing : String → Option String) (rows : List Row) (close : ScreenSessionClose) :
    ScreenRow :=
  policySession settings (classifySession settings
    (keyguardTimestamps rows (close.participantId rows)) calendar rows appsForcing close)

theorem length_ite_filter_le {α : Type} (on : Prop) [Decidable on] (p : α → Bool) (l : List α) :
    (if on then l.filter p else l).length ≤ l.length := by
  split
  · exact List.length_filter_le p l
  · exact le_rfl

theorem ite_filter_eq_self_iff {α : Type} {on : Prop} [Decidable on] {p : α → Bool} {l : List α} :
    (if on then l.filter p else l) = l ↔ (on → ∀ x ∈ l, p x = true) := by
  by_cases h : on
  · rw [if_pos h, List.filter_eq_self, forall_prop_of_true h]
  · rw [if_neg h, forall_prop_of_false h, eq_self_iff_true]

theorem eq_self_of_length_ite_filter {α : Type} {on : Prop} [Decidable on] {p : α → Bool}
    {l : List α} (h : l.length ≤ (if on then l.filter p else l).length) :
    (if on then l.filter p else l) = l := by
  refine List.Sublist.eq_of_length_le ?_ h
  split
  · exact List.filter_sublist
  · exact List.Sublist.refl l

/-- No participant is dropped just if no session is over the cap. -/
theorem notMem_overCapParticipants :
    (∀ session ∈ sessions, session.participantId ∉ overCapParticipants settings sessions) ↔
      ∀ session ∈ sessions, session.toRow.isOverCap settings = false := by
  constructor
  · intro h session hsession
    refine Bool.eq_false_iff.mpr fun hover => h session hsession ?_
    exact List.mem_map.mpr ⟨session, List.mem_filter.mpr ⟨hsession, hover⟩, rfl⟩
  · intro h session _ hdropped
    obtain ⟨other, hother, _⟩ := List.mem_map.mp hdropped
    obtain ⟨hother, hover⟩ := List.mem_filter.mp hother
    exact absurd hover (Bool.eq_false_iff.mp (h other hother))

/-- What the policies keep all of, they only mark. -/
theorem applyScreenSessionPolicies_eq
    (hshown : settings.lockedScreenAudioDisposition = .excludeFromPhoneAndAppSessions →
      ∀ session ∈ sessions, session.screenUsageLockScreenOnly ≠ some 1)
    (hwithin : settings.maximumDurationDisposition = .excludeParticipant →
      ∀ session ∈ sessions, session.toRow.isOverCap settings = false) :
    applyScreenSessionPolicies settings sessions = sessions.map (policySession settings) := by
  have hfirst := ite_filter_eq_self_iff.mpr fun h session hsession =>
    decide_eq_true (hshown h session hsession)
  have hsecond := ite_filter_eq_self_iff.mpr fun h session hsession =>
    decide_eq_true (notMem_overCapParticipants.mpr (hwithin h) session hsession)
  rw [applyScreenSessionPolicies, hfirst, hsecond]

theorem length_applyScreenSessionPolicies_le :
    (applyScreenSessionPolicies settings sessions).length ≤ sessions.length := by
  rw [applyScreenSessionPolicies, List.length_map]
  exact (length_ite_filter_le _ _ _).trans (length_ite_filter_le _ _ _)

/-- Where the policies drop no session, no session is over a cap that drops its participant. -/
theorem within_of_length (h : sessions.length ≤ (applyScreenSessionPolicies settings sessions).length)
    (hdrop : settings.maximumDurationDisposition = .excludeParticipant) :
    ∀ session ∈ sessions, session.toRow.isOverCap settings = false := by
  rw [applyScreenSessionPolicies, List.length_map] at h
  have hfirst := eq_self_of_length_ite_filter (h.trans (length_ite_filter_le _ _ _))
  rw [hfirst] at h
  have hsecond := ite_filter_eq_self_iff.mp (eq_self_of_length_ite_filter h) hdrop
  exact notMem_overCapParticipants.mp fun session hsession =>
    of_decide_eq_true (hsecond session hsession)

theorem classifyScreenSessions_eq
    (hunlocked : settings.lockedScreenAudioDisposition = .excludeFromPhoneAndAppSessions →
      ∀ close ∈ closes, close.state.staysLocked = false) :
    classifyScreenSessions settings calendar appsForcing rows closes =
      closes.map fun close => classifySession settings
        (keyguardTimestamps rows (close.participantId rows)) calendar rows appsForcing close := by
  rw [classifyScreenSessions, List.filter_eq_self.mpr]
  intro close hclose
  by_cases hdisposition : settings.lockedScreenAudioDisposition = .excludeFromPhoneAndAppSessions
  · simp [hunlocked hdisposition close hclose]
  · simp [hdisposition]

/-- Sessions of which none is dropped are published one by one. -/
theorem screenRows_eq (h : NoneDropped settings closes) :
    applyScreenSessionPolicies settings
        (classifyScreenSessions settings calendar appsForcing rows closes) =
      closes.map (publishedSession settings calendar appsForcing rows) := by
  rw [classifyScreenSessions_eq h.unlocked, applyScreenSessionPolicies_eq, List.map_map]
  · rfl
  · intro hdisposition session hsession
    obtain ⟨close, hclose, rfl⟩ := List.mem_map.mp hsession
    exact lockScreenOnly_classifySession (h.unlocked hdisposition close hclose)
  · intro hdisposition session hsession
    obtain ⟨close, hclose, rfl⟩ := List.mem_map.mp hsession
    rw [isOverCap_classifySession, h.within hdisposition close hclose]

/-- As many rows as sessions are published just if no session is dropped. -/
theorem length_screenRows_iff :
    (applyScreenSessionPolicies settings
        (classifyScreenSessions settings calendar appsForcing rows closes)).length =
      closes.length ↔ NoneDropped settings closes := by
  constructor
  · intro h
    have hkept : closes.length ≤
        (classifyScreenSessions settings calendar appsForcing rows closes).length :=
      h.symm.le.trans length_applyScreenSessionPolicies_le
    rw [classifyScreenSessions, List.length_map] at hkept
    have hunlocked : settings.lockedScreenAudioDisposition = .excludeFromPhoneAndAppSessions →
        ∀ close ∈ closes, close.state.staysLocked = false := by
      intro hdisposition close hclose
      have hall := List.filter_eq_self.mp (List.filter_sublist.eq_of_length_le hkept) close hclose
      simpa [hdisposition] using hall
    refine ⟨hunlocked, fun hdisposition close hclose => ?_⟩
    have hlength : (classifyScreenSessions settings calendar appsForcing rows closes).length =
        closes.length := by
      rw [classifyScreenSessions_eq hunlocked, List.length_map]
    have hwithin := within_of_length (hlength.trans h.symm).le hdisposition
    rw [classifyScreenSessions_eq hunlocked] at hwithin
    rw [← isOverCap_classifySession]
    exact hwithin _ (List.mem_map_of_mem hclose)
  · intro h
    rw [screenRows_eq h, List.length_map]

end Table

end Chronicle.Pipeline
