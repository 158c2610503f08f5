import Chronicle.Library.Bytes

/-!
# Prefix codes

An encoding that can be told apart whatever follows it. Numbers of one width are such a code, and so
is what has its length in front. Encodings in a row are taken apart one after the other.
-/

namespace Chronicle.Library.PrefixCodes

open Chronicle.Library.Bytes

variable {α β γ : Type*}

/-- Whatever follows them, the encodings of two valid values agree only when the values do. -/
def Delimits (valid : α → Prop) (encode : α → List β) : Prop :=
  ∀ ⦃a⦄, valid a → ∀ ⦃b⦄, valid b → ∀ ⦃s t : List β⦄, encode a ++ s = encode b ++ t → a = b ∧ s = t

variable {valid : α → Prop} {encode : α → List β}

/-- A code that delimits is injective. -/
theorem Delimits.inj (h : Delimits valid encode) {a b : α} (ha : valid a) (hb : valid b)
    (hencode : encode a = encode b) : a = b := by
  have hnil : encode a ++ [] = encode b ++ [] := by rw [hencode]
  exact (h ha hb hnil).1

/-- Encodings of one length are told apart by themselves. -/
theorem delimits_of_length {width : Nat} (hlength : ∀ a, (encode a).length = width)
    (hinj : ∀ a, valid a → ∀ b, valid b → encode a = encode b → a = b) : Delimits valid encode := by
  intro a ha b hb s t h
  obtain ⟨hencode, hrest⟩ := List.append_inj h (by rw [hlength, hlength])
  exact ⟨hinj a ha b hb hencode, hrest⟩

/-- A value that is encoded through another one, which determines it. -/
theorem Delimits.comap {validOf : γ → Prop} (h : Delimits valid encode) (f : γ → α)
    (hvalid : ∀ c, validOf c → valid (f c))
    (hinj : ∀ c, validOf c → ∀ d, validOf d → f c = f d → c = d) :
    Delimits validOf fun c => encode (f c) := by
  intro c hc d hd s t heq
  obtain ⟨hf, hrest⟩ := h (hvalid c hc) (hvalid d hd) heq
  exact ⟨hinj c hc d hd hf, hrest⟩

/-- Lists of one length are told apart element by element. -/
theorem Delimits.flatMap (h : Delimits valid encode) {l l' : List α} (hl : ∀ a ∈ l, valid a)
    (hl' : ∀ a ∈ l', valid a) (hlength : l.length = l'.length) {s t : List β}
    (heq : l.flatMap encode ++ s = l'.flatMap encode ++ t) : l = l' ∧ s = t := by
  induction l generalizing l' with
  | nil =>
      obtain rfl := List.eq_nil_of_length_eq_zero hlength.symm
      exact ⟨rfl, heq⟩
  | cons a l ih =>
      cases l' with
      | nil => exact absurd hlength (Nat.succ_ne_zero _)
      | cons b l' =>
          obtain ⟨ha, htail⟩ := List.forall_mem_cons.mp hl
          obtain ⟨hb, htail'⟩ := List.forall_mem_cons.mp hl'
          rw [List.flatMap_cons, List.flatMap_cons, List.append_assoc, List.append_assoc] at heq
          obtain ⟨rfl, hlater⟩ := h ha hb heq
          rw [List.length_cons, List.length_cons] at hlength
          obtain ⟨hlists, hrest⟩ := ih htail htail' (Nat.succ.inj hlength) hlater
          exact ⟨congrArg (a :: ·) hlists, hrest⟩

/-- Whole lists are told apart without their length when no encoding is empty. -/
theorem Delimits.flatMap_inj (h : Delimits valid encode) (hne : ∀ a, valid a → encode a ≠ [])
    {l l' : List α} (hl : ∀ a ∈ l, valid a) (hl' : ∀ a ∈ l', valid a)
    (heq : l.flatMap encode = l'.flatMap encode) : l = l' := by
  induction l generalizing l' with
  | nil =>
      cases l' with
      | nil => rfl
      | cons b l' =>
          rw [List.flatMap_cons] at heq
          exact absurd (List.append_eq_nil_iff.mp heq.symm).1 (hne b (hl' b List.mem_cons_self))
  | cons a l ih =>
      obtain ⟨ha, hl⟩ := List.forall_mem_cons.mp hl
      cases l' with
      | nil =>
          rw [List.flatMap_cons] at heq
          exact absurd (List.append_eq_nil_iff.mp heq).1 (hne a ha)
      | cons b l' =>
          obtain ⟨hb, htail⟩ := List.forall_mem_cons.mp hl'
          rw [List.flatMap_cons, List.flatMap_cons] at heq
          obtain ⟨rfl, hrest⟩ := h ha hb heq
          exact congrArg (a :: ·) (ih hl htail hrest)

/-- A section with a tag in front, left out when there is nothing in it. -/
def tagged (tag : List β) (encode : α → List β) : Option α → List β
  | none => []
  | some a => tag ++ encode a

/-- A section is told from what follows it when that does not begin with the tag. -/
theorem Delimits.tagged {tag : List β} (h : Delimits valid encode) {a b : Option α}
    (ha : ∀ x ∈ a, valid x) (hb : ∀ x ∈ b, valid x) {s t : List β} (hs : ¬tag <+: s)
    (ht : ¬tag <+: t) (heq : tagged tag encode a ++ s = tagged tag encode b ++ t) :
    a = b ∧ s = t := by
  cases a with
  | none =>
      cases b with
      | none => exact ⟨rfl, heq⟩
      | some y =>
          rw [PrefixCodes.tagged, PrefixCodes.tagged, List.nil_append, List.append_assoc] at heq
          exact absurd ⟨_, heq.symm⟩ hs
  | some x =>
      cases b with
      | none =>
          rw [PrefixCodes.tagged, PrefixCodes.tagged, List.nil_append, List.append_assoc] at heq
          exact absurd ⟨_, heq⟩ ht
      | some y =>
          rw [PrefixCodes.tagged, PrefixCodes.tagged, List.append_assoc, List.append_assoc] at heq
          obtain ⟨rfl, hrest⟩ := h (ha x rfl) (hb y rfl) (List.append_cancel_left heq)
          exact ⟨rfl, hrest⟩

/-- An encoding that is told apart for all values. -/
def SelfDelimiting (encode : α → List β) : Prop := Delimits (fun _ => True) encode

/-- The first of two encodings in a row, and what follows it. -/
theorem SelfDelimiting.split (h : SelfDelimiting encode) {a b : α} {s t : List β}
    (heq : encode a ++ s = encode b ++ t) : a = b ∧ s = t :=
  h trivial trivial heq

theorem selfDelimiting_of_length {w : Nat} (hlength : ∀ a, (encode a).length = w)
    (hinj : ∀ a b, encode a = encode b → a = b) : SelfDelimiting encode :=
  delimits_of_length hlength fun a _ b _ => hinj a b

/-! ## Bytes -/

/-- Numbers of one width. -/
theorem delimits_leBytes (width : Nat) : Delimits (fun n => n < 256 ^ width) (leBytes width) :=
  delimits_of_length (length_leBytes width) fun _ ha _ hb => leBytes_inj ha hb

/-- Bytes with their number in front. -/
def counted (bytes : List UInt8) : List UInt8 := leBytes 8 bytes.length ++ bytes

theorem delimits_counted : Delimits (fun bytes : List UInt8 => bytes.length < 2 ^ 64) counted := by
  intro a ha b hb s t h
  rw [counted, counted, List.append_assoc, List.append_assoc] at h
  obtain ⟨hlength, h⟩ := delimits_leBytes 8 ha hb h
  exact List.append_inj h hlength

/-- A text is determined by its bytes. -/
theorem utf8_inj {first second : String} (h : utf8 first = utf8 second) : first = second := by
  have hbytes : first.toList.utf8Encode = second.toList.utf8Encode :=
    congrArg List.toByteArray h
  have hchars := congrArg ByteArray.utf8Decode? hbytes
  rw [List.utf8Decode?_utf8Encode, List.utf8Decode?_utf8Encode] at hchars
  have hlists := congrArg Array.toList (Option.some.inj hchars)
  exact String.toList_inj.mp hlists

/-- A text whose bytes fit is told from what follows it. -/
theorem delimits_text :
    Delimits (fun text => (utf8 text).length < 2 ^ 64) fun text => counted (utf8 text) :=
  delimits_counted.comap utf8 (fun _ h => h) fun _ _ _ _ => utf8_inj

end Chronicle.Library.PrefixCodes
