import Chronicle.Pipeline.Row

/-!
# Local time

Instants and wall-clock readings count nanoseconds from 1970-01-01T00:00, and a calendar day is the
number of days from 1970-01-01. The time-zone database is a parameter: a zone says what its wall
clock shows at an instant, and at which instants it shows a reading.
-/

namespace Chronicle.Pipeline

open Chronicle.Library.Machine

/-- `chrono::LocalResult` -/
inductive LocalResult where
  | none
  | single (instant : Int)
  | ambiguous (earlier later : Int)
deriving DecidableEq, Repr

/-- A zone of the time-zone database. -/
structure Zone where
  toLocal : Int → Int
  fromLocal : Int → LocalResult

/-- `Tz::UTC` -/
def Zone.utc : Zone := ⟨id, .single⟩

/-- What the stages take from the calendar library: the zone of a name and the day of a date. -/
structure Calendar where
  zone : String → Option Zone
  parseDate : String → Option Int

/-- The nanoseconds of a day. -/
def nsPerDay : Int := 86400000000000

/-- The nanoseconds of an hour. -/
def nsPerHour : Int := 3600000000000

/-- The calendar day the zone shows at an instant. -/
def Zone.localDay (zone : Zone) (instant : Int) : Int := zone.toLocal instant / nsPerDay

/-- A date of the proleptic Gregorian calendar. -/
structure CivilDate where
  year : Int
  month : Int
  day : Int
deriving DecidableEq, Repr

/-- The date of a day, counted in eras of 400 years that begin on a first of March. -/
def civilDate (day : Int) : CivilDate :=
  let shifted := day + 719468
  let dayOfEra := shifted % 146097
  let yearOfEra :=
    (dayOfEra - dayOfEra / 1460 + dayOfEra / 36524 - dayOfEra / 146096) / 365
  let dayOfYear := dayOfEra - (365 * yearOfEra + yearOfEra / 4 - yearOfEra / 100)
  let marchMonth := (5 * dayOfYear + 2) / 153
  let month := if marchMonth < 10 then marchMonth + 3 else marchMonth - 9
  { year := yearOfEra + shifted / 146097 * 400 + if month ≤ 2 then 1 else 0
    month := month
    day := dayOfYear - (153 * marchMonth + 2) / 5 + 1 }

example : civilDate 0 = ⟨1970, 1, 1⟩ ∧ civilDate 19782 = ⟨2024, 2, 29⟩ := by decide

/-- The digits of a number, filled up with zeros from the left. -/
def padded (width : Nat) (value : Int) : String :=
  let digits := toString value.natAbs
  let sign := if value < 0 then "-" else ""
  sign ++ String.ofList (List.replicate (width - digits.length - sign.length) '0') ++ digits

/-- `LocalDateMemo::date_string` of a day. -/
def dateString (day : Int) : String :=
  let date := civilDate day
  padded 4 date.year ++ "-" ++ padded 2 date.month ++ "-" ++ padded 2 date.day

/-- `weekday_chronicle`: Sunday is 1 and Saturday 7. -/
def weekdayChronicle (day : Int) : Nat := ((day + 4) % 7 + 1).toNat

/-- `populate_time_columns` -/
def populateTimeColumns (row : Row) (zone : Zone) : Row :=
  let day := zone.localDay row.eventTimestampNs
  let weekday := weekdayChronicle day
  { row with
    date := dateString day
    day := weekday
    weekdayMf := if 2 ≤ weekday ∧ weekday ≤ 6 then 1 else 0
    weekdayMth := if 2 ≤ weekday ∧ weekday ≤ 5 then 1 else 0
    weekdaySuTh := if weekday = 1 ∨ 2 ≤ weekday ∧ weekday ≤ 5 then 1 else 0
    hour := (zone.toLocal row.eventTimestampNs % nsPerDay / nsPerHour).toNat
    quarter := (((civilDate day).month - 1) / 3 + 1).toNat }

/-- The instant of a reading, the earlier one of two; the outer `none` asks for the next reading. -/
def LocalResult.resolve : LocalResult → Option (Option Int)
  | none => Option.none
  | single instant => some (checked64 instant)
  | ambiguous earlier _ => some (checked64 earlier)

/-- `local_day_start_ns` -/
def localDayStartNs (zone : Zone) (day : Int) : Option Int :=
  ((List.range 180).findSome? fun minute =>
    (zone.fromLocal (day * nsPerDay + minute * 60000000000)).resolve).join

/-- The day of `NaiveDate::MAX`, after which there is no next day. -/
def maxDay : Int := 95026236

/-- The loop of `local_midnights_within` over the days after `day`. -/
def localMidnightsAfter (zone : Zone) (startNs stopNs : Int) : Nat → Int → List Int
  | 0, _ => []
  | remaining + 1, day =>
      match localDayStartNs zone (day + 1) with
      | none => localMidnightsAfter zone startNs stopNs remaining (day + 1)
      | some instant =>
          if stopNs ≤ instant then []
          else if startNs < instant then
            instant :: localMidnightsAfter zone startNs stopNs remaining (day + 1)
          else localMidnightsAfter zone startNs stopNs remaining (day + 1)

/-- `local_midnights_within` -/
def localMidnightsWithin (zone : Zone) (startNs stopNs : Int) : List Int :=
  if stopNs ≤ startNs then []
  else
    localMidnightsAfter zone startNs stopNs (maxDay - zone.localDay startNs).toNat
      (zone.localDay startNs)

end Chronicle.Pipeline
