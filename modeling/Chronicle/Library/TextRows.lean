import Chronicle.Library.PrefixCodes

/-!
# Rows of texts

Texts in a row, each with its length in front, are told apart. A list within such a row that has no
length of its own is told from what follows it by a test that its elements pass and the next text
does not. Numbers are written in decimal, and an absent one is left blank.
-/

namespace Chronicle.Library.TextRows

open Chronicle.Library.Bytes Chronicle.Library.PrefixCodes

/-- The text is shorter than what a length can say. -/
def Fits (texts : List String) : Prop := ∀ text ∈ texts, (utf8 text).length < 2 ^ 64

theorem length_utf8 (text : String) : (utf8 text).length = text.utf8ByteSize := by
  rw [utf8, ← String.size_toByteArray, ← String.utf8Encode_toList, List.utf8Encode,
    List.size_toByteArray]

theorem fits_iff {texts : List String} :
    (∀ text ∈ texts, text.utf8ByteSize < 2 ^ 64) ↔ Fits texts := by
  simp only [Fits, length_utf8]

instance (texts : List String) : Decidable (Fits texts) := decidable_of_iff _ fits_iff

/-- The bytes of the texts. -/
def rowBytes (texts : List String) : List UInt8 := texts.flatMap fun text => counted (utf8 text)

theorem length_rowBytes (texts : List String) :
    (rowBytes texts).length = (texts.map fun text => 8 + text.utf8ByteSize).sum := by
  induction texts with
  | nil => rfl
  | cons text texts ih =>
      have hcounted : (counted (utf8 text)).length = 8 + text.utf8ByteSize := by
        rw [counted, List.length_append, length_leBytes, length_utf8]
      rw [List.map_cons, List.sum_cons, ← ih, ← hcounted, ← List.length_append]
      rfl

theorem rowBytes_inj {texts texts' : List String} (h : Fits texts) (h' : Fits texts')
    (heq : rowBytes texts = rowBytes texts') : texts = texts' := by
  refine delimits_text.flatMap_inj ?_ h h' heq
  intro text _ hnil
  have hlength := congrArg List.length hnil
  simp [counted] at hlength

/-- Texts that begin alike differ in what follows. -/
theorem append_text_inj {first second second' : String} (h : first ++ second = first ++ second') :
    second = second' := by
  have hlists := congrArg String.toList h
  rw [String.toList_append, String.toList_append] at hlists
  exact String.toList_inj.mp (List.append_cancel_left hlists)

/-! ## Lists without a length -/

section Sections

variable {α : Type*} {p : α → Bool} {l l' rest rest' : List α} {x x' : α}

/-- A list whose elements pass a test is told from what follows when that does not begin with such
an element. -/
theorem section_inj (hl : ∀ a ∈ l, p a = true) (hl' : ∀ a ∈ l', p a = true) (hx : p x = false)
    (hx' : p x' = false) (heq : l ++ x :: rest = l' ++ x' :: rest') :
    l = l' ∧ x = x' ∧ rest = rest' := by
  induction l generalizing l' with
  | nil =>
      cases l' with
      | nil => exact ⟨rfl, List.cons.inj heq⟩
      | cons b l' =>
          -- the text after the one list would be an element of the other
          obtain ⟨rfl, _⟩ := List.cons.inj heq
          rw [hl' x List.mem_cons_self] at hx
          exact Bool.noConfusion hx
  | cons a l ih =>
      cases l' with
      | nil =>
          obtain ⟨rfl, _⟩ := List.cons.inj heq
          rw [hl a List.mem_cons_self] at hx'
          exact Bool.noConfusion hx'
      | cons b l' =>
          obtain ⟨rfl, hrest⟩ := List.cons.inj heq
          obtain ⟨rfl, hlater⟩ := ih (fun c hc => hl c (List.mem_cons_of_mem _ hc))
            (fun c hc => hl' c (List.mem_cons_of_mem _ hc)) hrest
          exact ⟨rfl, hlater⟩

end Sections

/-! ## Numbers -/

/-- The text begins with a digit. -/
def beginsWithDigit (text : String) : Bool := text.toList.head?.any Char.isDigit

theorem toString_nat_inj {m n : Nat} (h : toString m = toString n) : m = n := by
  have hparsed := congrArg (fun text : String => Nat.ofDigitChars 10 text.toList 0) h
  simpa using hparsed

theorem beginsWithDigit_nat (n : Nat) : beginsWithDigit (toString n) = true := by
  have hlist : (toString n).toList = Nat.toDigits 10 n := by simp
  rw [beginsWithDigit, hlist]
  cases hdigits : Nat.toDigits 10 n with
  | nil => exact absurd hdigits Nat.toDigits_ne_nil
  | cons c rest =>
      have hc : c ∈ Nat.toDigits 10 n := hdigits ▸ List.mem_cons_self
      exact Nat.isDigit_of_mem_toDigits (by decide) (by decide) hc

theorem toString_nat_ne_empty (n : Nat) : toString n ≠ "" := by
  intro h
  have hdigit := beginsWithDigit_nat n
  rw [h] at hdigit
  exact absurd hdigit (by decide)

theorem beginsWithDigit_neg (n : Nat) : beginsWithDigit (toString (Int.negSucc n)) = false := by
  have hlist : (toString (Int.negSucc n)).toList = '-' :: (toString (n + 1)).toList := by
    show ("-" ++ (n + 1).repr).toList = _
    rw [String.toList_append]
    rfl
  rw [beginsWithDigit, hlist]
  rfl

theorem toString_int_inj {m n : Int} (h : toString m = toString n) : m = n := by
  cases m with
  | ofNat m =>
      cases n with
      | ofNat n => exact congrArg Int.ofNat (toString_nat_inj h)
      | negSucc n =>
          have hdigit := beginsWithDigit_nat m
          rw [show toString m = toString (Int.negSucc n) from h, beginsWithDigit_neg] at hdigit
          exact Bool.noConfusion hdigit
  | negSucc m =>
      cases n with
      | ofNat n =>
          have hdigit := beginsWithDigit_nat n
          rw [show toString n = toString (Int.negSucc m) from h.symm, beginsWithDigit_neg] at hdigit
          exact Bool.noConfusion hdigit
      | negSucc n =>
          have hlists := congrArg String.toList
            (show "-" ++ (m + 1).repr = "-" ++ (n + 1).repr from h)
          rw [String.toList_append, String.toList_append] at hlists
          have htexts := String.toList_inj.mp (List.append_cancel_left hlists)
          exact congrArg Int.negSucc (Nat.succ.inj (toString_nat_inj htexts))

theorem toString_int_ne_empty (n : Int) : toString n ≠ "" := by
  cases n with
  | ofNat n => exact toString_nat_ne_empty n
  | negSucc n =>
      intro h
      have hlists := congrArg String.toList (show "-" ++ (n + 1).repr = "" from h)
      rw [String.toList_append] at hlists
      exact absurd (List.append_eq_nil_iff.mp hlists).1 (by decide)

/-- An optional value is told from a blank when no value is written as one. -/
theorem optional_inj {α : Type*} {write : α → String} (hinj : ∀ a b, write a = write b → a = b)
    {blank : String} (hblank : ∀ a, write a ≠ blank) {a b : Option α}
    (h : (a.map write).getD blank = (b.map write).getD blank) : a = b := by
  cases a with
  | none =>
      cases b with
      | none => rfl
      | some b => exact absurd h.symm (hblank b)
  | some a =>
      cases b with
      | none => exact absurd h (hblank a)
      | some b => exact congrArg some (hinj a b h)

end Chronicle.Library.TextRows
