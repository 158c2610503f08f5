import Chronicle.Output.CsvFields

/-!
# Formulas in delivered tables

A spreadsheet evaluates a cell that begins like a formula. The filter puts an apostrophe before such
cells while the bytes of a table pass through it, and holds a cell with a sign back until it knows
whether the cell is a number.
-/

namespace Chronicle.Output

open Chronicle.Library.Rfc4180

/-- `NeutralizerState` -/
inductive NeutralizerState where
  | cellStart
  | unquoted
  | signedPending
  | quotedStart
  | quoted
  | quotedQuote
deriving DecidableEq, Repr

/-- `FORMULA_NEUTRALIZER` -/
def formulaNeutralizer : UInt8 := ascii '\''

/-- `starts_a_formula` -/
def startsAFormula (byte : UInt8) : Bool :=
  byte = ascii '=' || byte = ascii '+' || byte = ascii '-' || byte = ascii '@' ||
    byte = ascii '\t' || byte = ascii '\r'

/-- `ends_an_unquoted_cell` -/
def endsAnUnquotedCell (byte : UInt8) : Bool :=
  byte = ascii ',' || byte = ascii '\n' || byte = ascii '\r'

/-- `SpreadsheetFormulaNeutralizer`; the inner writer is what it has received. -/
structure SpreadsheetFormulaNeutralizer where
  inner : List UInt8 := []
  state : NeutralizerState := .cellStart
  pending : List UInt8 := []
  pendingNumericBytes : Bool := true
  out : List UInt8 := []
deriving DecidableEq, Repr

namespace SpreadsheetFormulaNeutralizer

/-- `release_pending` -/
def releasePending (w : SpreadsheetFormulaNeutralizer) : SpreadsheetFormulaNeutralizer :=
  { w with
    out := w.out ++ (if isNumericCell w.pending then [] else [formulaNeutralizer]) ++ w.pending
    pending := [] }

/-- The held tail and the byte begin like an infinity. -/
def infinityPrefix (heldTail : List UInt8) (byte : UInt8) : Bool :=
  heldTail.length < signedInfinityTail.length && heldTail.isPrefixOf signedInfinityTail &&
    signedInfinityTail[heldTail.length]? = some byte

/-- `may_stay_numeric` -/
def mayStayNumeric (w : SpreadsheetFormulaNeutralizer) (byte : UInt8) :
    SpreadsheetFormulaNeutralizer × Bool :=
  let numeric := w.pendingNumericBytes && canContinueANumber byte
  ({ w with pendingNumericBytes := numeric }, numeric || infinityPrefix w.pending.tail byte)

/-- The byte goes out and the state follows. -/
def emit (w : SpreadsheetFormulaNeutralizer) (bytes : List UInt8) (state : NeutralizerState) :
    SpreadsheetFormulaNeutralizer :=
  { w with out := w.out ++ bytes, state }

/-- `push` -/
def push (w : SpreadsheetFormulaNeutralizer) (byte : UInt8) : SpreadsheetFormulaNeutralizer :=
  match w.state with
  | .cellStart =>
      if byte = ascii '"' then w.emit [byte] .quotedStart
      else if byte = ascii '+' || byte = ascii '-' then
        { w with pending := w.pending ++ [byte], pendingNumericBytes := true, state := .signedPending }
      else if endsAnUnquotedCell byte then w.emit [byte] .cellStart
      else if startsAFormula byte then w.emit [formulaNeutralizer, byte] .unquoted
      else w.emit [byte] .unquoted
  | .unquoted => w.emit [byte] (if endsAnUnquotedCell byte then .cellStart else .unquoted)
  | .signedPending =>
      if endsAnUnquotedCell byte then w.releasePending.emit [byte] .cellStart
      else
        let (w, may) := w.mayStayNumeric byte
        if may then { w with pending := w.pending ++ [byte], state := .signedPending }
        else { w.emit (formulaNeutralizer :: w.pending ++ [byte]) .unquoted with pending := [] }
  | .quotedStart =>
      if byte = ascii '"' then w.emit [byte] .quotedQuote
      else if startsAFormula byte then w.emit [formulaNeutralizer, byte] .quoted
      else w.emit [byte] .quoted
  | .quoted => w.emit [byte] (if byte = ascii '"' then .quotedQuote else .quoted)
  | .quotedQuote =>
      w.emit [byte] (if byte = ascii '"' then .quoted
        else if endsAnUnquotedCell byte then .cellStart
        else .unquoted)

/-- `write` -/
def write (w : SpreadsheetFormulaNeutralizer) (bytes : List UInt8) :
    SpreadsheetFormulaNeutralizer :=
  let w := bytes.foldl push { w with out := [] }
  { w with inner := w.inner ++ w.out, out := [] }

/-- `finish`, which gives back what the inner writer has received. -/
def finish (w : SpreadsheetFormulaNeutralizer) : List UInt8 :=
  let w := if w.state = .signedPending then w.releasePending else w
  w.inner ++ w.out

end SpreadsheetFormulaNeutralizer

/-- What the filter makes of a text that is written in these pieces. -/
def neutralizeChunks (chunks : List (List UInt8)) : List UInt8 :=
  (chunks.foldl SpreadsheetFormulaNeutralizer.write {}).finish

/-! ## Cutting a text -/

namespace SpreadsheetFormulaNeutralizer

variable {w : SpreadsheetFormulaNeutralizer} {byte : UInt8} {bytes : List UInt8}

/-- The filter with other bytes gone out. -/
def sent (w : SpreadsheetFormulaNeutralizer) (inner out : List UInt8) :
    SpreadsheetFormulaNeutralizer :=
  { w with inner, out }

/-- What goes out at a byte does not depend on what went out before. -/
theorem push_sent (w : SpreadsheetFormulaNeutralizer) (inner out : List UInt8) (byte : UInt8) :
    (w.sent inner (out ++ w.out)).push byte =
      (w.push byte).sent inner (out ++ (w.push byte).out) := by
  obtain ⟨_, state, pending, numeric, sent⟩ := w
  cases state with
  | signedPending =>
      simp only [push, SpreadsheetFormulaNeutralizer.sent, emit, releasePending, mayStayNumeric]
      by_cases hends : endsAnUnquotedCell byte = true
      · simp only [hends, if_true, List.append_assoc]
        rfl
      · by_cases hstays : (numeric && canContinueANumber byte || infinityPrefix pending.tail byte) =
            true
        · simp only [hends, hstays, if_true, if_false, Bool.false_eq_true]
        · simp only [hends, hstays, if_false, Bool.false_eq_true, List.append_assoc]
  | unquoted => simp [push, SpreadsheetFormulaNeutralizer.sent, emit]
  | quoted => simp [push, SpreadsheetFormulaNeutralizer.sent, emit]
  | quotedQuote => simp [push, SpreadsheetFormulaNeutralizer.sent, emit]
  | quotedStart =>
      simp only [push, SpreadsheetFormulaNeutralizer.sent, emit]
      split_ifs <;> simp
  | cellStart =>
      simp only [push, SpreadsheetFormulaNeutralizer.sent, emit]
      split_ifs <;> simp

theorem foldl_push_sent (w : SpreadsheetFormulaNeutralizer) (inner out bytes : List UInt8) :
    bytes.foldl push (w.sent inner (out ++ w.out)) =
      (bytes.foldl push w).sent inner (out ++ (bytes.foldl push w).out) := by
  induction bytes generalizing w with
  | nil => rfl
  | cons byte bytes ih => rw [List.foldl_cons, push_sent, ih, List.foldl_cons]

theorem foldl_push_inner (w : SpreadsheetFormulaNeutralizer) (bytes : List UInt8) :
    (bytes.foldl push w).inner = w.inner := by
  have h := congrArg inner (foldl_push_sent w w.inner [] bytes)
  exact h

/-- The inner writer has received everything. -/
def settled (w : SpreadsheetFormulaNeutralizer) : SpreadsheetFormulaNeutralizer :=
  w.sent (w.inner ++ w.out) []

theorem write_settled (w : SpreadsheetFormulaNeutralizer) (bytes : List UInt8) :
    w.settled.write bytes = (bytes.foldl push w).settled := by
  have hstart : w = w.settled.sent w.inner (w.out ++ w.settled.out) := by
    simp [settled, SpreadsheetFormulaNeutralizer.sent]
  have hrun := foldl_push_sent w.settled w.inner w.out bytes
  rw [← hstart] at hrun
  have hinner := foldl_push_inner w.settled bytes
  rw [hrun]
  unfold write
  change (bytes.foldl push w.settled).settled = _
  unfold settled at hinner ⊢
  simp only [SpreadsheetFormulaNeutralizer.sent] at hinner ⊢
  rw [hinner, List.append_assoc]

/-- Writing a text piece by piece is pushing its bytes one by one. -/
theorem foldl_write_settled (w : SpreadsheetFormulaNeutralizer) (chunks : List (List UInt8)) :
    chunks.foldl write w.settled = (chunks.flatten.foldl push w).settled := by
  induction chunks generalizing w with
  | nil => rfl
  | cons chunk chunks ih =>
      rw [List.foldl_cons, write_settled, ih, List.flatten_cons, List.foldl_append]

/-! ## One cell -/

/-- Between two cells. -/
def AtStart (w : SpreadsheetFormulaNeutralizer) (out : List UInt8) : Prop :=
  w.state = .cellStart ∧ w.pending = [] ∧ w.out = out

/-- In the text of a cell without quotes; nothing is held. -/
def InText (w : SpreadsheetFormulaNeutralizer) (out : List UInt8) : Prop :=
  w.state = .unquoted ∧ w.pending = [] ∧ w.out = out

/-- A cell with a sign is held. -/
def Held (w : SpreadsheetFormulaNeutralizer) (sign : UInt8) (tail out : List UInt8) : Prop :=
  w.state = .signedPending ∧ w.pending = sign :: tail ∧
    w.pendingNumericBytes = tail.all canContinueANumber ∧ w.out = out

variable {out tail rest : List UInt8} {sign : UInt8}

theorem InText.push_end (h : w.InText out) (hend : endsAnUnquotedCell byte = true) :
    (w.push byte).AtStart (out ++ [byte]) := by
  obtain ⟨hstate, hpending, rfl⟩ := h
  simp [push, hstate, emit, AtStart, hend, hpending]

theorem InText.foldl_push (h : w.InText out)
    (hplain : ∀ byte ∈ bytes, endsAnUnquotedCell byte = false) :
    (bytes.foldl push w).InText (out ++ bytes) := by
  induction bytes generalizing w out with
  | nil => simpa using h
  | cons byte bytes ih =>
      obtain ⟨hstate, hpending, rfl⟩ := h
      have hbyte := hplain byte List.mem_cons_self
      have hnext : (w.push byte).InText (w.out ++ [byte]) := by
        simp [push, hstate, emit, InText, hbyte, hpending]
      have htail := ih hnext fun other hother => hplain other (List.mem_cons_of_mem byte hother)
      rwa [List.append_assoc] at htail

/-- The bytes after a sign may become a number. -/
def MayBeNumeric (tail : List UInt8) : Prop :=
  tail.all canContinueANumber = true ∨ tail <+: signedInfinityTail

theorem infinityPrefix_iff : infinityPrefix tail byte = true ↔
    tail ++ [byte] <+: signedInfinityTail := by
  rw [infinityPrefix, Bool.and_eq_true, Bool.and_eq_true, decide_eq_true_eq, decide_eq_true_eq,
    List.isPrefixOf_iff_prefix]
  constructor
  · rintro ⟨⟨hlength, more, hmore⟩, hbyte⟩
    rw [← hmore, List.getElem?_append_right (Nat.le_refl _), Nat.sub_self] at hbyte
    cases more with
    | nil => simp at hbyte
    | cons next more =>
        obtain rfl : next = byte := by simpa using hbyte
        exact ⟨more, by rw [← hmore, List.append_assoc]; rfl⟩
  · rintro ⟨more, hmore⟩
    rw [List.append_assoc] at hmore
    refine ⟨⟨?_, [byte] ++ more, hmore⟩, ?_⟩
    · rw [← hmore]
      simp
    · rw [← hmore]
      simp

theorem Held.push_byte (h : w.Held sign tail out) (hbyte : endsAnUnquotedCell byte = false) :
    (w.push byte).Held sign (tail ++ [byte]) out ∨
      ¬ MayBeNumeric (tail ++ [byte]) ∧
        (w.push byte).InText (out ++ formulaNeutralizer :: sign :: (tail ++ [byte])) := by
  obtain ⟨hstate, hpending, hnumeric, rfl⟩ := h
  have hmay : (w.mayStayNumeric byte).2 = true ↔ MayBeNumeric (tail ++ [byte]) := by
    rw [mayStayNumeric, MayBeNumeric, Bool.or_eq_true, hnumeric, hpending, List.tail_cons,
      infinityPrefix_iff, List.all_append]
    simp
  by_cases h : MayBeNumeric (tail ++ [byte])
  · left
    have hstays := hmay.mpr h
    unfold push
    rw [hstate]
    simp only [hbyte, hstays, if_true, Bool.false_eq_true, if_false]
    refine ⟨rfl, ?_, ?_, rfl⟩
    · simp [mayStayNumeric, hpending]
    · simp [mayStayNumeric, hnumeric]
  · right
    have hstays : (w.mayStayNumeric byte).2 = false := by
      rw [← Bool.not_eq_true, hmay]
      exact h
    refine ⟨h, ?_⟩
    unfold push
    rw [hstate]
    simp only [hbyte, hstays, Bool.false_eq_true, if_false]
    refine ⟨rfl, rfl, ?_⟩
    simp [emit, mayStayNumeric, hpending]

theorem Mantissa.all {mantissa : List UInt8} (h : Mantissa mantissa) :
    mantissa.all canContinueANumber = true := by
  have hdigit : ∀ d, isAsciiDigit d = true → canContinueANumber d = true := fun d hd => by
    simp [canContinueANumber, hd]
  cases h with
  | integer hdigits hnonempty => exact List.all_eq_true.mpr fun d hd => hdigit d (hdigits d hd)
  | decimal hinteger hdecimals hnonempty =>
      rw [List.all_append, List.all_cons, Bool.and_eq_true, Bool.and_eq_true]
      exact ⟨List.all_eq_true.mpr fun d hd => hdigit d (hinteger d hd), by decide,
        List.all_eq_true.mpr fun d hd => hdigit d (hdecimals d hd)⟩

theorem Exponent.all {exponent : List UInt8} (h : Exponent exponent) :
    exponent.all canContinueANumber = true := by
  cases h with
  | none => rfl
  | @some mark sign digits hmark hsign hdigits hnonempty =>
      have hall : digits.all canContinueANumber = true := List.all_eq_true.mpr fun d hd => by
        simp [canContinueANumber, hdigits d hd]
      have hmark' : canContinueANumber mark = true := by rcases hmark with rfl | rfl <;> decide
      have hsign' : sign.all canContinueANumber = true := by
        rcases hsign with rfl | rfl | rfl <;> decide
      rw [List.cons_append, List.all_cons, List.all_append, hmark', hsign', hall]
      rfl

/-- The bytes after the sign of a number may become one, however few of them are known. -/
theorem mayBeNumeric_of_numeric (rest : List UInt8) (hsign : isSign sign = true)
    (h : isNumericCell (sign :: (tail ++ rest)) = true) : MayBeNumeric tail := by
  rcases (isNumericCell_iff hsign).mp h with
    ⟨_, mantissa, exponent, -, hmantissa, hexponent, heq⟩ | ⟨_, -, heq⟩
  · left
    have hall : (tail ++ rest).all canContinueANumber = true := by
      rw [(List.cons.inj heq).2, List.all_append, Mantissa.all hmantissa, Exponent.all hexponent]
      rfl
    rw [List.all_append, Bool.and_eq_true] at hall
    exact hall.1
  · exact .inr ⟨rest, (List.cons.inj heq).2⟩

/-- A held cell stays held to its end, or it is no number and has gone out behind an apostrophe. -/
theorem Held.foldl_push (hsign : isSign sign = true) (h : w.Held sign tail out)
    (hplain : ∀ byte ∈ bytes, endsAnUnquotedCell byte = false) :
    (bytes.foldl push w).Held sign (tail ++ bytes) out ∨
      isNumericCell (sign :: (tail ++ bytes)) = false ∧
        (bytes.foldl push w).InText (out ++ formulaNeutralizer :: sign :: (tail ++ bytes)) := by
  induction bytes generalizing w tail with
  | nil => exact .inl (by simpa using h)
  | cons byte bytes ih =>
      have hrest : ∀ other ∈ bytes, endsAnUnquotedCell other = false := fun other hother =>
        hplain other (List.mem_cons_of_mem byte hother)
      have hsplit : tail ++ byte :: bytes = (tail ++ [byte]) ++ bytes := by simp
      rw [hsplit, List.foldl_cons]
      rcases h.push_byte (hplain byte List.mem_cons_self) with hheld | ⟨hnone, htext⟩
      · exact ih hheld hrest
      · right
        refine ⟨?_, ?_⟩
        · rw [← Bool.not_eq_true]
          exact fun hnumeric => hnone (mayBeNumeric_of_numeric bytes hsign hnumeric)
        · have hrun := htext.foldl_push hrest
          rwa [List.append_assoc, List.cons_append, List.cons_append] at hrun

theorem Held.push_end (h : w.Held sign tail out) (hend : endsAnUnquotedCell byte = true) :
    (w.push byte).AtStart (out ++ (if isNumericCell (sign :: tail) then [] else
      [formulaNeutralizer]) ++ sign :: tail ++ [byte]) := by
  obtain ⟨hstate, hpending, -, rfl⟩ := h
  simp [push, hstate, hend, releasePending, emit, AtStart, hpending]

end SpreadsheetFormulaNeutralizer

/-! ## Fields and tables -/

theorem numeric_iff {field : List UInt8} : SignedDecimal field ∨ SignedInfinity field ↔
    field.head?.any isSign = true ∧ isNumericCell field = true := by
  constructor
  · intro h
    have hsigned : ∃ sign tail, isSign sign = true ∧ field = sign :: tail := by
      rcases h with ⟨sign, mantissa, exponent, hsign, -, -, rfl⟩ | ⟨sign, hsign, rfl⟩
      · exact ⟨sign, _, hsign, rfl⟩
      · exact ⟨sign, _, hsign, rfl⟩
    obtain ⟨sign, tail, hsign, rfl⟩ := hsigned
    exact ⟨by simpa using hsign, (isNumericCell_iff hsign).mpr h⟩
  · rintro ⟨hsign, hnumeric⟩
    cases field with
    | nil => simp at hsign
    | cons sign tail => exact (isNumericCell_iff (by simpa using hsign)).mp hnumeric

instance (field : List UInt8) : Decidable (SignedDecimal field ∨ SignedInfinity field) :=
  decidable_of_iff _ numeric_iff.symm

/-- The field as a spreadsheet may see it: an apostrophe stands before one that begins like a
formula and is no signed number. -/
def neutralized (field : List UInt8) : List UInt8 :=
  if field.head?.any startsAFormula = true ∧ ¬ (SignedDecimal field ∨ SignedInfinity field) then
    formulaNeutralizer :: field
  else field

section Fields

open SpreadsheetFormulaNeutralizer

variable {w : SpreadsheetFormulaNeutralizer} {out field : List UInt8} {byte : UInt8}

theorem neutralized_neutralized (field : List UInt8) :
    neutralized (neutralized field) = neutralized field := by
  by_cases h : field.head?.any startsAFormula = true ∧
      ¬ (SignedDecimal field ∨ SignedInfinity field)
  · have hstart : startsAFormula formulaNeutralizer = false := by decide
    rw [show neutralized field = formulaNeutralizer :: field from if_pos h]
    exact if_neg fun hboth => by simp [hstart] at hboth
  · rw [show neutralized field = field from if_neg h, show neutralized field = field from if_neg h]

theorem needsQuotes_neutralized (field : List UInt8) :
    csvBytes.needsQuotes (neutralized field) = csvBytes.needsQuotes field := by
  unfold neutralized
  split
  · rw [Symbols.needsQuotes, List.any_cons]
    rfl
  · rfl

/-- A field of the filter's alphabet of numbers needs no quotes. -/
theorem needsQuotes_of_numeric (h : SignedDecimal field ∨ SignedInfinity field) :
    csvBytes.needsQuotes field = false := by
  have hplain : ∀ byte, canContinueANumber byte = true → byte ≠ ascii ',' ∧ byte ≠ ascii '"' ∧
      byte ≠ ascii '\n' ∧ byte ≠ ascii '\r' := by
    intro byte hbyte
    refine ⟨?_, ?_, ?_, ?_⟩ <;> rintro rfl <;> exact absurd hbyte (by decide)
  obtain ⟨hsign, hnumeric⟩ := numeric_iff.mp h
  cases field with
  | nil => simp at hsign
  | cons sign tail =>
      have hsigned : isSign sign = true := by simpa using hsign
      have hhead : canContinueANumber sign = true := by
        rw [isSign, Bool.or_eq_true, decide_eq_true_eq, decide_eq_true_eq] at hsigned
        rcases hsigned with rfl | rfl <;> decide
      refine needsQuotes_eq_false.mpr fun byte hbyte => ?_
      rcases List.mem_cons.mp hbyte with rfl | hbyte
      · exact hplain _ hhead
      · rcases mayBeNumeric_of_numeric [] hsigned (by rwa [List.append_nil]) with
          hall | hprefix
        · exact hplain byte (List.all_eq_true.mp hall byte hbyte)
        · have hmem := hprefix.subset hbyte
          have hletters : signedInfinityTail.all (fun letter => decide (letter ≠ ascii ',' ∧
              letter ≠ ascii '"' ∧ letter ≠ ascii '\n' ∧ letter ≠ ascii '\r')) = true := by decide
          exact of_decide_eq_true (List.all_eq_true.mp hletters byte hmem)

theorem endsAnUnquotedCell_of_plain (hplain : csvBytes.needsQuotes field = false) :
    ∀ byte ∈ field, endsAnUnquotedCell byte = false := by
  intro byte hbyte
  obtain ⟨hcomma, -, hfeed, hreturn⟩ := needsQuotes_eq_false.mp hplain byte hbyte
  have hcomma' : byte ≠ ascii ',' := hcomma
  have hfeed' : byte ≠ ascii '\n' := hfeed
  have hreturn' : byte ≠ ascii '\r' := hreturn
  simp [endsAnUnquotedCell, hcomma', hfeed', hreturn']

theorem SpreadsheetFormulaNeutralizer.AtStart.push_end (h : w.AtStart out) (hend : endsAnUnquotedCell byte = true) :
    (w.push byte).AtStart (out ++ [byte]) := by
  obtain ⟨hstate, hpending, rfl⟩ := h
  have hends : byte = ascii ',' ∨ byte = ascii '\n' ∨ byte = ascii '\r' := by
    simpa [endsAnUnquotedCell, or_assoc] using hend
  have hbyte : byte ≠ ascii '"' ∧ byte ≠ ascii '+' ∧ byte ≠ ascii '-' := by
    rcases hends with rfl | rfl | rfl <;> decide
  simp [push, hstate, hbyte, hend, emit, AtStart, hpending]

/-- A field without quotes and the byte that ends it. -/
theorem SpreadsheetFormulaNeutralizer.AtStart.plain_field (h : w.AtStart out) (hplain : csvBytes.needsQuotes field = false)
    (hend : endsAnUnquotedCell byte = true) :
    ((field ++ [byte]).foldl push w).AtStart (out ++ neutralized field ++ [byte]) := by
  have hcells := endsAnUnquotedCell_of_plain hplain
  rw [List.foldl_append, List.foldl_cons, List.foldl_nil]
  cases field with
  | nil => simpa [neutralized] using h.push_end hend
  | cons first rest =>
      have hrest : ∀ other ∈ rest, endsAnUnquotedCell other = false := fun other hother =>
        hcells other (List.mem_cons_of_mem first hother)
      have hfirst := hcells first List.mem_cons_self
      have hquote : first ≠ ascii '"' :=
        (needsQuotes_eq_false.mp hplain first List.mem_cons_self).2.1
      obtain ⟨hstate, hpending, rfl⟩ := h
      rw [List.foldl_cons]
      -- a leading sign is held back until the field shows whether it is a number
      by_cases hsign : isSign first = true
      · have hheld : (w.push first).Held first [] w.out := by
          have hsigns : (first = ascii '+' || first = ascii '-') = true := hsign
          unfold push
          rw [hstate]
          simp only [hquote, if_false, hsigns, if_true]
          exact ⟨rfl, by rw [hpending]; rfl, rfl, rfl⟩
        have hformula : startsAFormula first = true := by
          rw [isSign, Bool.or_eq_true, decide_eq_true_eq, decide_eq_true_eq] at hsign
          rcases hsign with rfl | rfl <;> decide
        rcases hheld.foldl_push hsign hrest with hlast | ⟨hnone, htext⟩
        · have hfinal := hlast.push_end hend
          rw [List.nil_append] at hfinal
          unfold neutralized
          by_cases hnumeric : isNumericCell (first :: rest) = true
          · rw [if_neg fun hboth => hboth.2 ((isNumericCell_iff hsign).mp hnumeric)]
            simpa [hnumeric] using hfinal
          · rw [if_pos ⟨by simpa using hformula,
              fun hboth => hnumeric ((isNumericCell_iff hsign).mpr hboth)⟩]
            simpa [hnumeric] using hfinal
        · -- the held sign was released as text: the field is no number
          rw [List.nil_append] at hnone htext
          have hnumeric : ¬ (SignedDecimal (first :: rest) ∨ SignedInfinity (first :: rest)) :=
            fun hboth => by
              rw [(isNumericCell_iff hsign).mpr hboth] at hnone
              cases hnone
          unfold neutralized
          rw [if_pos ⟨by simpa using hformula, hnumeric⟩]
          exact htext.push_end hend
      · have hsigns : (first = ascii '+' || first = ascii '-') = false := by
          simpa [isSign] using hsign
        have hnumeric : ¬ (SignedDecimal (first :: rest) ∨ SignedInfinity (first :: rest)) :=
          fun hboth => hsign (by simpa using (numeric_iff.mp hboth).1)
        have hopened : (w.push first).InText
            (w.out ++ (if startsAFormula first then [formulaNeutralizer] else []) ++ [first]) := by
          unfold push
          rw [hstate]
          by_cases hformula : startsAFormula first = true
          · simp [hquote, hsigns, hfirst, hformula, InText, emit, hpending]
          · simp [hquote, hsigns, hfirst, hformula, InText, emit, hpending]
        have hfinal := (hopened.foldl_push hrest).push_end hend
        unfold neutralized
        by_cases hformula : startsAFormula first = true
        · rw [if_pos ⟨by simpa using hformula, hnumeric⟩]
          simpa [hformula] using hfinal
        · rw [if_neg fun hboth => hformula (by simpa using hboth.1)]
          simpa [hformula] using hfinal

/-- In a cell with quotes. -/
def SpreadsheetFormulaNeutralizer.InQuotes (w : SpreadsheetFormulaNeutralizer)
    (out : List UInt8) : Prop :=
  w.state = .quoted ∧ w.pending = [] ∧ w.out = out

theorem SpreadsheetFormulaNeutralizer.InQuotes.foldl_push (field : List UInt8)
    (h : w.InQuotes out) :
    ((csvBytes.escaped field).foldl push w).InQuotes (out ++ csvBytes.escaped field) := by
  induction field generalizing w out with
  | nil => simpa [Symbols.escaped] using h
  | cons first rest ih =>
      obtain ⟨hstate, hpending, rfl⟩ := h
      rw [escaped_cons, List.foldl_append, ← List.append_assoc]
      refine ih ?_
      by_cases hquote : first = ascii '"'
      · subst hquote
        simp [csvBytes, push, hstate, emit, InQuotes, hpending]
      · have hother : first ≠ csvBytes.quote := hquote
        simp [hother, hquote, push, hstate, emit, InQuotes, hpending]

/-- The first byte of a cell with quotes decides on the apostrophe. -/
theorem SpreadsheetFormulaNeutralizer.AtStart.opened (h : w.AtStart out) (hfield : field ≠ []) :
    ((csvBytes.quote :: csvBytes.escaped field).foldl push w).InQuotes
      (out ++ csvBytes.quote :: ((if field.head?.any startsAFormula then [formulaNeutralizer]
        else []) ++ csvBytes.escaped field)) := by
  obtain ⟨hstate, hpending, rfl⟩ := h
  cases field with
  | nil => exact absurd rfl hfield
  | cons first rest =>
      have hopen : (w.push csvBytes.quote).state = .quotedStart ∧
          (w.push csvBytes.quote).pending = [] ∧
          (w.push csvBytes.quote).out = w.out ++ [csvBytes.quote] := by
        simp [csvBytes, push, hstate, emit, hpending]
      obtain ⟨hstate, hpending, hout⟩ := hopen
      have hfirst : ((if first = csvBytes.quote then [csvBytes.quote, csvBytes.quote]
          else [first]).foldl push (w.push csvBytes.quote)).InQuotes
          (w.out ++ [csvBytes.quote] ++ (if startsAFormula first then [formulaNeutralizer] else []) ++
            if first = csvBytes.quote then [csvBytes.quote, csvBytes.quote] else [first]) := by
        by_cases hquote : first = csvBytes.quote
        · subst hquote
          have hformula : startsAFormula csvBytes.quote = false := by decide
          have hbyte : csvBytes.quote = ascii '"' := rfl
          rw [if_pos rfl, hformula, List.foldl_cons, List.foldl_cons, List.foldl_nil]
          generalize w.push csvBytes.quote = opened at hstate hpending hout
          simp [push, hstate, hbyte, emit, InQuotes, hpending, hout]
        · have hbyte : first ≠ ascii '"' := hquote
          rw [if_neg hquote, List.foldl_cons, List.foldl_nil]
          generalize w.push csvBytes.quote = opened at hstate hpending hout
          by_cases hformula : startsAFormula first = true
          · simp [push, hstate, hbyte, hformula, emit, InQuotes, hpending, hout]
          · simp [push, hstate, hbyte, hformula, emit, InQuotes, hpending, hout]
      have hrest := hfirst.foldl_push rest
      rw [List.foldl_cons, escaped_cons, List.foldl_append]
      simp only [List.append_assoc, List.singleton_append] at hrest
      simp only [List.head?_cons, Option.any_some]
      exact hrest

/-- A field in quotes and the byte that ends it. -/
theorem SpreadsheetFormulaNeutralizer.AtStart.quoted_field (h : w.AtStart out)
    (hquotes : csvBytes.needsQuotes field = true) (hend : endsAnUnquotedCell byte = true) :
    ((csvBytes.inQuotes field ++ [byte]).foldl push w).AtStart
      (out ++ csvBytes.inQuotes (neutralized field) ++ [byte]) := by
  have hfield : field ≠ [] := by
    rintro rfl
    cases hquotes
  have hnumeric : ¬ (SignedDecimal field ∨ SignedInfinity field) := fun hboth => by
    rw [needsQuotes_of_numeric hboth] at hquotes
    cases hquotes
  have hescaped : csvBytes.escaped (neutralized field) =
      (if field.head?.any startsAFormula then [formulaNeutralizer] else []) ++
        csvBytes.escaped field := by
    unfold neutralized
    by_cases hformula : field.head?.any startsAFormula = true
    · rw [if_pos ⟨hformula, hnumeric⟩, if_pos hformula, escaped_cons]
      rfl
    · rw [if_neg fun hboth => hformula hboth.1, if_neg hformula]
      rfl
  obtain ⟨hstate, hpending, hout⟩ := h.opened hfield
  have hbyte : byte ≠ ascii '"' := by
    rintro rfl
    cases hend
  have hquote : csvBytes.quote = ascii '"' := rfl
  rw [Symbols.inQuotes, Symbols.inQuotes, hescaped, List.append_assoc, List.foldl_append,
    List.singleton_append, List.foldl_cons, List.foldl_cons, List.foldl_nil]
  generalize (csvBytes.quote :: csvBytes.escaped field).foldl push w = closing at hstate hpending hout
  simp [push, hstate, hquote, hbyte, hend, emit, AtStart, hpending, hout]

/-- A written field and the byte that ends it. -/
theorem SpreadsheetFormulaNeutralizer.AtStart.field_end (field : List UInt8)
    (h : w.AtStart out)
    (hend : endsAnUnquotedCell byte = true) :
    (((written field).text ++ [byte]).foldl push w).AtStart
      (out ++ (written (neutralized field)).text ++ [byte]) := by
  rw [text_written, text_written, needsQuotes_neutralized]
  cases hquotes : csvBytes.needsQuotes field with
  | false => exact h.plain_field hquotes hend
  | true => exact h.quoted_field hquotes hend

/-- A field and the end of its record. -/
theorem SpreadsheetFormulaNeutralizer.AtStart.last_field (h : w.AtStart out) (ending : Ending) :
    (((written field).text ++ ending.text csvBytes).foldl push w).AtStart
      (out ++ (written (neutralized field)).text ++ ending.text csvBytes) := by
  cases ending with
  | lf => exact h.field_end field (by decide)
  | crlf =>
      have hreturn := h.field_end field (show endsAnUnquotedCell csvBytes.carriageReturn = true by decide)
      have hfeed := hreturn.push_end (show endsAnUnquotedCell csvBytes.lineFeed = true by decide)
      simpa [Ending.text, List.foldl_append] using hfeed

theorem SpreadsheetFormulaNeutralizer.AtStart.fields {fields : List (List UInt8)}
    (hfields : fields ≠ []) (h : w.AtStart out) (ending : Ending) :
    ((fieldsText (fields.map written) ++ ending.text csvBytes).foldl push w).AtStart
      (out ++ fieldsText ((fields.map neutralized).map written) ++ ending.text csvBytes) := by
  induction fields generalizing w out with
  | nil => exact absurd rfl hfields
  | cons first fields ih =>
      cases fields with
      | nil => exact h.last_field ending
      | cons next fields =>
          have hfirst := h.field_end first (show endsAnUnquotedCell csvBytes.comma = true by decide)
          have hrest := ih (List.cons_ne_nil next fields) hfirst
          simp only [List.map_cons, fieldsText] at hrest ⊢
          simpa [List.foldl_append] using hrest

end Fields

/-- The record with its fields as a spreadsheet may see them. -/
def TableRecord.neutralized (record : TableRecord) : TableRecord where
  fields := record.fields.map Output.neutralized
  ending := record.ending
  nonempty := by simpa using record.nonempty

open SpreadsheetFormulaNeutralizer in
theorem foldl_push_table {w : SpreadsheetFormulaNeutralizer} {out : List UInt8}
    (h : w.AtStart out) (table : List TableRecord) :
    ((writeTable table).foldl push w).AtStart
      (out ++ writeTable (table.map TableRecord.neutralized)) := by
  rw [writeTable_eq, writeTable_eq]
  induction table generalizing w out with
  | nil => simpa using h
  | cons record table ih =>
      have hrecord := h.fields record.nonempty record.ending
      rw [List.flatMap_cons, List.foldl_append, List.map_cons, List.flatMap_cons,
        ← List.append_assoc]
      refine ih ?_
      rwa [List.append_assoc] at hrecord

/-- The filter writes the table whose fields a spreadsheet may see. -/
theorem neutralizeChunks_eq {chunks : List (List UInt8)} {table : List TableRecord}
    (hchunks : chunks.flatten = writeTable table) :
    neutralizeChunks chunks = writeTable (table.map TableRecord.neutralized) := by
  have hstart : ({} : SpreadsheetFormulaNeutralizer).AtStart [] := ⟨rfl, rfl, rfl⟩
  obtain ⟨hstate, -, hout⟩ := foldl_push_table hstart table
  have hrun := SpreadsheetFormulaNeutralizer.foldl_write_settled {} chunks
  have hinner := SpreadsheetFormulaNeutralizer.foldl_push_inner {} (writeTable table)
  have hsettled : ({} : SpreadsheetFormulaNeutralizer).settled = {} := rfl
  rw [hsettled, hchunks] at hrun
  rw [neutralizeChunks, hrun, SpreadsheetFormulaNeutralizer.finish]
  rw [List.nil_append] at hout
  simp [SpreadsheetFormulaNeutralizer.settled, SpreadsheetFormulaNeutralizer.sent, hstate, hinner,
    hout]

/-- However the bytes of a table are cut into writes, what comes out parses to the same table with
an apostrophe before each field that begins like a formula and is no signed number; a second pass
changes nothing. -/
theorem neutralizeChunks_table (table : List TableRecord) (chunks : List (List UInt8))
    (hchunks : chunks.flatten = writeTable table) :
    parseTable chunks.flatten = some (table.map TableRecord.fields) ∧
      parseTable (neutralizeChunks chunks) =
        some (table.map fun record => record.fields.map neutralized) ∧
      ∀ again : List (List UInt8), again.flatten = neutralizeChunks chunks →
        neutralizeChunks again = neutralizeChunks chunks := by
  have houtput := neutralizeChunks_eq hchunks
  refine ⟨hchunks ▸ parseTable_writeTable table, ?_, fun again hagain => ?_⟩
  · rw [houtput, parseTable_writeTable, List.map_map]
    rfl
  · rw [neutralizeChunks_eq (hagain.trans houtput), houtput, List.map_map]
    congr 1
    refine List.map_congr_left fun record _ => ?_
    simp [TableRecord.neutralized, Function.comp_def, neutralized_neutralized]

/-- A formula, a number that is cut in two, and text with a sign in quotes. -/
theorem neutralizeChunks_formulas :
    parseTable (neutralizeChunks
        ["=1,-".toList.map ascii, "5\r\n\"-a,\"\n".toList.map ascii]) =
      some [["'=1".toList.map ascii, "-5".toList.map ascii], ["'-a,".toList.map ascii]] :=
  (neutralizeChunks_table
    [⟨["=1".toList.map ascii, "-5".toList.map ascii], .crlf, by simp⟩,
      ⟨["-a,".toList.map ascii], .lf, by simp⟩]
    ["=1,-".toList.map ascii, "5\r\n\"-a,\"\n".toList.map ascii] (by decide)).2.1.trans (by decide)

end Chronicle.Output
