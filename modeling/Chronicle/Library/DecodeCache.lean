import Mathlib.Order.Basic

/-!
# A cache of one decoded value

A decoder first verifies its input, which yields a header, and then decodes it. The cache keeps the
input it decoded last. It answers an equal input without verifying it, and a verified input of the
same digest without decoding it.
-/

namespace Chronicle.Library.DecodeCache

/-- A decoder in two steps, and the digest that the header of an input carries. -/
structure Decoder (Input Header Digest Error Value : Type*) where
  verify : Input → Except Error Header
  digest : Header → Digest
  decode : Input → Header → Except Error Value

/-- The input decoded last. -/
structure Entry (Input Digest Value : Type*) where
  digest : Digest
  input : Input
  value : Value

variable {Input Header Digest Error Value : Type*} [DecidableEq Input] [DecidableEq Digest]
variable (decoder : Decoder Input Header Digest Error Value)

/-- Verifying and decoding without a cache. -/
def Decoder.fresh (input : Input) : Except Error Value :=
  match decoder.verify input with
  | .error error => .error error
  | .ok header => decoder.decode input header

/-- Decoding through the cache; the old entry is dropped before a new input is decoded. -/
def Decoder.cached (cache : Option (Entry Input Digest Value)) (input : Input) :
    Except Error Value × Option (Entry Input Digest Value) :=
  match cache.filter fun entry => entry.input = input with
  | some entry => (.ok entry.value, cache)
  | none =>
      match decoder.verify input with
      | .error error => (.error error, cache)
      | .ok header =>
          match cache.filter fun entry => entry.digest = decoder.digest header with
          | some entry => (.ok entry.value, cache)
          | none =>
              match decoder.decode input header with
              | .error error => (.error error, none)
              | .ok value => (.ok value, some ⟨decoder.digest header, input, value⟩)

/-- The entry is a verified and decoded input. -/
def Decoder.Sound (cache : Option (Entry Input Digest Value)) : Prop :=
  ∀ entry ∈ cache, ∃ header, decoder.verify entry.input = .ok header ∧
    decoder.digest header = entry.digest ∧ decoder.decode entry.input header = .ok entry.value

/-- Another verified input of the entry's digest decodes to the entry's value. -/
def Decoder.Agrees (cache : Option (Entry Input Digest Value)) (input : Input) : Prop :=
  ∀ entry ∈ cache, entry.input ≠ input → ∀ header, decoder.verify input = .ok header →
    entry.digest = decoder.digest header → decoder.decode input header = .ok entry.value

variable {decoder} {cache : Option (Entry Input Digest Value)} {input : Input}

omit [DecidableEq Input] [DecidableEq Digest] in
theorem sound_none : decoder.Sound (none : Option (Entry Input Digest Value)) :=
  fun _ h => absurd h (Option.not_mem_none _)

omit [DecidableEq Input] [DecidableEq Digest] in
theorem filter_eq_none {p : Entry Input Digest Value → Bool} :
    cache.filter p = none ↔ ∀ entry ∈ cache, p entry = false := by
  simp [Option.filter_eq_none_iff]

omit [DecidableEq Input] [DecidableEq Digest] in
theorem fresh_of_verify {header : Header} (h : decoder.verify input = .ok header) :
    decoder.fresh input = decoder.decode input header := by
  rw [Decoder.fresh, h]

/-- The cache never holds anything but a decoded input. -/
theorem Decoder.Sound.cached (h : decoder.Sound cache) :
    decoder.Sound (decoder.cached cache input).2 := by
  unfold Decoder.cached
  split
  · exact h
  · split
    · exact h
    · next header hverify =>
        split
        · exact h
        · split
          · exact sound_none
          · next value hdecode =>
              rintro entry hentry
              obtain rfl := Option.some.inj hentry
              exact ⟨header, hverify, rfl, hdecode⟩

/-- After a call the cache holds what it held, or the input of the call. -/
theorem cached_input {entry : Entry Input Digest Value}
    (h : entry ∈ (decoder.cached cache input).2) : entry ∈ cache ∨ entry.input = input := by
  unfold Decoder.cached at h
  split at h
  · exact .inl h
  · split at h
    · exact .inl h
    · split at h
      · exact .inl h
      · split at h
        · cases h
        · exact .inr (congrArg Entry.input (Option.some.inj h)).symm

/-- One call answers like the decoder without a cache exactly when the digest did not mislead it. -/
theorem Decoder.Sound.cached_eq_iff (h : decoder.Sound cache) :
    (decoder.cached cache input).1 = decoder.fresh input ↔ decoder.Agrees cache input := by
  unfold Decoder.cached
  split
  · -- the very input that was cached
    next entry hfind =>
      obtain ⟨hentry, hsame⟩ := Option.filter_eq_some_iff.mp hfind
      obtain rfl := of_decide_eq_true hsame
      obtain ⟨header, hverify, -, hdecode⟩ := h entry hentry
      refine iff_of_true (((fresh_of_verify hverify).trans hdecode).symm) ?_
      intro other hother hne
      obtain rfl := Option.mem_unique hentry hother
      exact absurd rfl hne
  · next hmiss =>
      have hother : ∀ entry ∈ cache, entry.input ≠ input := fun entry hentry =>
        of_decide_eq_false (filter_eq_none.mp hmiss entry hentry)
      split
      · -- an input that fails its check has no digest to look up
        next error hverify =>
          refine iff_of_true (by rw [Decoder.fresh, hverify]) ?_
          intro entry _ _ header hok
          rw [hverify] at hok
          cases hok
      · next header hverify =>
          rw [fresh_of_verify hverify]
          split
          · -- a hit by digest answers with the cached value
            next entry hfind =>
              obtain ⟨hentry, hdigest⟩ := Option.filter_eq_some_iff.mp hfind
              constructor
              · intro hsame other hmem _ header' hok _
                obtain rfl := Option.mem_unique hentry hmem
                obtain rfl := Except.ok.inj (hverify.symm.trans hok)
                exact hsame.symm
              · intro hagrees
                exact (hagrees entry hentry (hother entry hentry) header hverify
                  (of_decide_eq_true hdigest)).symm
          · next hnone =>
              refine iff_of_true ?_ ?_
              · split <;> simp_all
              · intro entry hentry _ header' hok hdigest
                obtain rfl := Except.ok.inj (hverify.symm.trans hok)
                exact absurd hdigest (of_decide_eq_false (filter_eq_none.mp hnone entry hentry))

variable (decoder) in
/-- With an empty cache nothing is skipped. -/
theorem cached_none (input : Input) : (decoder.cached none input).1 = decoder.fresh input :=
  sound_none.cached_eq_iff.mpr fun _ hentry => absurd hentry (Option.not_mem_none _)

end Chronicle.Library.DecodeCache
