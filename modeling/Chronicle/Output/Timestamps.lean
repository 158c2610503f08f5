import Chronicle.Library.Bytes
import Chronicle.Output.CsvFields
import Chronicle.Pipeline.DateStrings

/-!
# Timestamps in delivered tables

The writers push the digits of a local time one by one, and format it where its year or its offset
does not allow that. Either way no byte of a timestamp has a meaning of its own in a table.
-/

namespace Chronicle.Output

open Chronicle.Library.Bytes Chronicle.Pipeline

/-- A character of a timestamp. -/
def isTimeChar (c : Char) : Bool := c.isDigit || c == '+' || c == '-' || c == ':' || c == ' '

/-- A text of such characters. -/
def TimeText (text : String) : Prop := text.toList.all isTimeChar = true

/-- A local time as the calendar library gives it, with the text of its offset. -/
structure LocalTime where
  year : Int
  month : Nat
  day : Nat
  hour : Nat
  minute : Nat
  second : Nat
  offset : Int
  offsetText : String
  date_le : month ≤ 12 ∧ day ≤ 31
  clock_le : hour ≤ 23 ∧ minute ≤ 59 ∧ second ≤ 60
  offset_lt : offset.natAbs < 86400
  offsetText_plain : TimeText offsetText

/-- `push_two_digits` -/
def pushTwoDigits (out : List UInt8) (value : Nat) : List UInt8 :=
  out ++ [ascii '0' + UInt8.ofNat (value / 10), ascii '0' + UInt8.ofNat (value % 10)]

/-- `push_year` -/
def pushYear (out : List UInt8) (year : Nat) : List UInt8 :=
  pushTwoDigits (pushTwoDigits out (year / 100)) (year % 100)

/-- `push_clock` -/
def pushClock (out : List UInt8) (time : LocalTime) : List UInt8 :=
  let out := pushTwoDigits out time.hour ++ [ascii ':']
  let out := pushTwoDigits out time.minute ++ [ascii ':']
  pushTwoDigits out time.second

/-- `push_iso_date` -/
def pushIsoDate (out : List UInt8) (year : Nat) (time : LocalTime) : List UInt8 :=
  let out := pushYear out year ++ [ascii '-']
  let out := pushTwoDigits out time.month ++ [ascii '-']
  pushTwoDigits out time.day

/-- `push_offset` -/
def pushOffset (out : List UInt8) (offset : UInt8 × Nat × Nat) : List UInt8 :=
  let out := pushTwoDigits (out ++ [offset.1]) offset.2.1 ++ [ascii ':']
  pushTwoDigits out offset.2.2

/-- `direct_year` -/
def directYear (time : LocalTime) : Option Nat :=
  if 0 ≤ time.year ∧ time.year ≤ 9999 then some time.year.toNat else none

/-- `direct_offset` -/
def directOffset (time : LocalTime) : Option (UInt8 × Nat × Nat) :=
  if time.offset % 60 = 0 then
    let minutes := time.offset.natAbs / 60
    some (if time.offset < 0 then ascii '-' else ascii '+', minutes / 60, minutes % 60)
  else none

/-- `{:02}:{:02}:{:02}` -/
def clockText (time : LocalTime) : String :=
  padded 2 time.hour ++ ":" ++ padded 2 time.minute ++ ":" ++ padded 2 time.second

/-- `write_event_timestamp_fmt` -/
def writeEventTimestampFmt (out : List UInt8) (time : LocalTime) : List UInt8 :=
  out ++ utf8 (padded 4 time.year ++ "-" ++ padded 2 time.month ++ "-" ++ padded 2 time.day ++
    " " ++ clockText time ++ time.offsetText)

/-- `write_session_timestamp_fmt` -/
def writeSessionTimestampFmt (out : List UInt8) (time : LocalTime) : List UInt8 :=
  out ++ utf8 (padded 2 time.month ++ "-" ++ padded 2 time.day ++ "-" ++ padded 4 time.year ++
    " " ++ clockText time)

/-- What `emit_event_timestamp` writes of a local time. -/
def writeEventTimestamp (out : List UInt8) (time : LocalTime) : List UInt8 :=
  match directYear time, directOffset time with
  | some year, some offset =>
      pushOffset (pushClock (pushIsoDate out year time ++ [ascii ' ']) time) offset
  | _, _ => writeEventTimestampFmt out time

/-- What `emit_session_timestamp` writes of a local time. -/
def writeSessionTimestamp (out : List UInt8) (time : LocalTime) : List UInt8 :=
  match directYear time with
  | some year =>
      let out := pushTwoDigits out time.month ++ [ascii '-']
      let out := pushTwoDigits out time.day ++ [ascii '-']
      pushClock (pushYear out year ++ [ascii ' ']) time
  | none => writeSessionTimestampFmt out time

/-! ## No byte needs quotes -/

/-- What is written after the bytes before needs no quotes. -/
def WritesPlain (write : List UInt8 → List UInt8) : Prop :=
  ∃ bytes, needsCsvQuoting bytes = false ∧ ∀ out, write out = out ++ bytes

section Plain

variable {time : LocalTime} {write next : List UInt8 → List UInt8}

theorem needsCsvQuoting_append (a b : List UInt8) :
    needsCsvQuoting (a ++ b) = (needsCsvQuoting a || needsCsvQuoting b) := List.any_append

theorem WritesPlain.then (h : WritesPlain write) (hnext : WritesPlain next) :
    WritesPlain fun out => next (write out) := by
  obtain ⟨bytes, hplain, hwrite⟩ := h
  obtain ⟨more, hmore, hnext⟩ := hnext
  refine ⟨bytes ++ more, ?_, fun out => ?_⟩
  · rw [needsCsvQuoting_append, hplain, hmore]
    rfl
  · show next (write out) = _
    rw [hnext, hwrite, List.append_assoc]

theorem writesPlain_bytes {bytes : List UInt8} (h : needsCsvQuoting bytes = false) :
    WritesPlain fun out => out ++ bytes := ⟨bytes, h, fun _ => rfl⟩

theorem writesPlain_pushTwoDigits {value : Nat} (h : value < 100) :
    WritesPlain fun out => pushTwoDigits out value := by
  have hdigits : ∀ value < 100, needsCsvQuoting [ascii '0' + UInt8.ofNat (value / 10),
      ascii '0' + UInt8.ofNat (value % 10)] = false := by decide
  exact writesPlain_bytes (hdigits value h)

theorem writesPlain_pushYear {year : Nat} (h : year ≤ 9999) :
    WritesPlain fun out => pushYear out year :=
  (writesPlain_pushTwoDigits (by omega)).then (writesPlain_pushTwoDigits (by omega))

theorem writesPlain_pushClock (time : LocalTime) : WritesPlain fun out => pushClock out time := by
  obtain ⟨hhour, hminute, hsecond⟩ := time.clock_le
  have hcolon : WritesPlain fun out => out ++ [ascii ':'] := writesPlain_bytes (by decide)
  exact ((((writesPlain_pushTwoDigits (by omega)).then hcolon).then
    (writesPlain_pushTwoDigits (by omega))).then hcolon).then (writesPlain_pushTwoDigits (by omega))

theorem directYear_le {year : Nat} (h : directYear time = some year) : year ≤ 9999 := by
  unfold directYear at h
  split at h
  · obtain rfl := Option.some.inj h
    omega
  · cases h

theorem writesPlain_pushIsoDate {year : Nat} (h : directYear time = some year) :
    WritesPlain fun out => pushIsoDate out year time := by
  obtain ⟨hmonth, hday⟩ := time.date_le
  have hdash : WritesPlain fun out => out ++ [ascii '-'] := writesPlain_bytes (by decide)
  exact ((((writesPlain_pushYear (directYear_le h)).then hdash).then
    (writesPlain_pushTwoDigits (by omega))).then hdash).then (writesPlain_pushTwoDigits (by omega))

theorem writesPlain_pushOffset {offset : UInt8 × Nat × Nat} (h : directOffset time = some offset) :
    WritesPlain fun out => pushOffset out offset := by
  have hlt := time.offset_lt
  unfold directOffset at h
  split at h
  · obtain rfl := Option.some.inj h
    have hsign : WritesPlain fun out =>
        out ++ [if time.offset < 0 then ascii '-' else ascii '+'] := by
      refine writesPlain_bytes ?_
      split <;> decide
    have hcolon : WritesPlain fun out => out ++ [ascii ':'] := writesPlain_bytes (by decide)
    have hhours : time.offset.natAbs / 60 / 60 < 100 := by omega
    have hminutes : time.offset.natAbs / 60 % 60 < 100 := by omega
    exact ((hsign.then (writesPlain_pushTwoDigits hhours)).then hcolon).then
      (writesPlain_pushTwoDigits hminutes)
  · cases h

theorem needsCsvQuoting_utf8EncodeChar {c : Char} (h : isTimeChar c = true) :
    needsCsvQuoting (String.utf8EncodeChar c) = false := by
  have hdigits : ∀ n, 48 ≤ n → n ≤ 57 →
      needsCsvQuoting (String.utf8EncodeChar (Char.ofNat n)) = false := by
    intro n hlow hhigh
    interval_cases n <;> rfl
  simp only [isTimeChar, Bool.or_eq_true, beq_iff_eq, or_assoc] at h
  rcases h with hdigit | rfl | rfl | rfl | rfl
  · obtain ⟨hlow, hhigh⟩ := Char.isDigit_iff_toNat.mp hdigit
    rw [← Char.ofNat_toNat c]
    exact hdigits c.toNat hlow hhigh
  · rfl
  · rfl
  · rfl
  · rfl

theorem TimeText.writesPlain {text : String} (h : TimeText text) :
    WritesPlain fun out => out ++ utf8 text := by
  have hplain : ∀ chars : List Char, chars.all isTimeChar = true →
      needsCsvQuoting (chars.flatMap String.utf8EncodeChar) = false := by
    intro chars
    induction chars with
    | nil => exact fun _ => rfl
    | cons c rest ih =>
        intro hall
        obtain ⟨hfirst, hrest⟩ := (Bool.and_eq_true _ _).mp hall
        rw [List.flatMap_cons, needsCsvQuoting_append, needsCsvQuoting_utf8EncodeChar hfirst,
          ih hrest]
        rfl
  exact writesPlain_bytes (hplain text.toList h)

theorem TimeText.append {a b : String} (ha : TimeText a) (hb : TimeText b) : TimeText (a ++ b) := by
  rw [TimeText, String.toList_append, List.all_append, ha, hb]
  rfl

theorem timeText_padded (width : Nat) (value : Int) : TimeText (padded width value) := by
  have hdigits : ∀ width value : Nat, (paddedDigits width value).all isTimeChar = true := by
    intro width value
    refine List.all_eq_true.mpr fun c hc => ?_
    rcases List.mem_append.mp hc with hzero | hdigit
    · rw [List.eq_of_mem_replicate hzero]
      rfl
    · have hisDigit := Nat.isDigit_of_mem_toDigits (by omega) (by omega) hdigit
      rw [isTimeChar, hisDigit]
      rfl
  unfold TimeText
  rcases Int.lt_or_le value 0 with hsign | hsign
  · rw [toList_padded_of_neg hsign, List.all_cons, hdigits]
    rfl
  · rw [toList_padded_of_nonneg hsign]
    exact hdigits width value.natAbs

theorem timeText_clockText (time : LocalTime) : TimeText (clockText time) := by
  have hcolon : TimeText ":" := rfl
  exact ((((timeText_padded 2 time.hour).append hcolon).append
    (timeText_padded 2 time.minute)).append hcolon).append (timeText_padded 2 time.second)

theorem writesPlain_writeEventTimestamp (time : LocalTime) :
    WritesPlain fun out => writeEventTimestamp out time := by
  unfold writeEventTimestamp
  split
  · next year offset hyear hoffset =>
      have hspace : WritesPlain fun out => out ++ [ascii ' '] := writesPlain_bytes (by decide)
      have hdate : WritesPlain fun out => pushIsoDate out year time ++ [ascii ' '] :=
        (writesPlain_pushIsoDate hyear).then hspace
      have hclock : WritesPlain fun out =>
          pushClock (pushIsoDate out year time ++ [ascii ' ']) time :=
        hdate.then (writesPlain_pushClock time)
      have hall := hclock.then (writesPlain_pushOffset hoffset)
      exact hall
  · have hdash : TimeText "-" := rfl
    have hspace : TimeText " " := rfl
    have hdate : TimeText (padded 4 time.year ++ "-" ++ padded 2 time.month ++ "-" ++
        padded 2 time.day) :=
      ((((timeText_padded 4 time.year).append hdash).append
        (timeText_padded 2 time.month)).append hdash).append (timeText_padded 2 time.day)
    have htext := ((hdate.append hspace).append (timeText_clockText time)).append
      time.offsetText_plain
    show WritesPlain fun out => out ++ utf8 (padded 4 time.year ++ "-" ++ padded 2 time.month ++
      "-" ++ padded 2 time.day ++ " " ++ clockText time ++ time.offsetText)
    exact htext.writesPlain

theorem writesPlain_writeSessionTimestamp (time : LocalTime) :
    WritesPlain fun out => writeSessionTimestamp out time := by
  obtain ⟨hmonth, hday⟩ := time.date_le
  unfold writeSessionTimestamp
  split
  · rename_i hyear
    have hdash : WritesPlain fun out => out ++ [ascii '-'] := writesPlain_bytes (by decide)
    have hspace : WritesPlain fun out => out ++ [ascii ' '] := writesPlain_bytes (by decide)
    exact ((((((writesPlain_pushTwoDigits (by omega)).then hdash).then
      (writesPlain_pushTwoDigits (by omega))).then hdash).then
      (writesPlain_pushYear (directYear_le hyear))).then hspace).then (writesPlain_pushClock time)
  · have hdash : TimeText "-" := rfl
    have hspace : TimeText " " := rfl
    have hdate : TimeText (padded 2 time.month ++ "-" ++ padded 2 time.day ++ "-" ++
        padded 4 time.year) :=
      ((((timeText_padded 2 time.month).append hdash).append
        (timeText_padded 2 time.day)).append hdash).append (timeText_padded 4 time.year)
    exact ((hdate.append hspace).append (timeText_clockText time)).writesPlain

/-- What is written of a time is the same wherever it is written. -/
theorem WritesPlain.write_eq (h : WritesPlain write) (out : List UInt8) :
    needsCsvQuoting (write []) = false ∧ write out = out ++ write [] := by
  obtain ⟨bytes, hplain, hwrite⟩ := h
  rw [hwrite, hwrite out, List.nil_append]
  exact ⟨hplain, rfl⟩

end Plain

end Chronicle.Output
