/-!
Days of the calendar and times of day, before and after 1970.
-/

namespace Prune.Calendar

structure Day where
  year : Int
  month : Nat
  day : Nat

/-- The day that is `days` days after the first of January 1970. Years are counted from March, so
that a leap day ends its year, and in eras of four hundred years, which are all alike. -/
def Day.ofEpoch (days : Int) : Day :=
  let z := days + 719468
  let era := z.fdiv 146097
  let dayOfEra := (z.fmod 146097).toNat
  let yearOfEra := (dayOfEra - dayOfEra / 1460 + dayOfEra / 36524 - dayOfEra / 146096) / 365
  let dayOfYear := dayOfEra - (365 * yearOfEra + yearOfEra / 4 - yearOfEra / 100)
  let shifted := (5 * dayOfYear + 2) / 153
  let month := if shifted < 10 then shifted + 3 else shifted - 9
  let year : Int := yearOfEra + era * 400 + if month ≤ 2 then 1 else 0
  ⟨year, month, dayOfYear - (153 * shifted + 2) / 5 + 1⟩

/-- How many days after the first of January 1970 a day is. A month or a day outside its range goes on
into the next or the last ones. -/
def daysSince (year : Int) (month : Int) (day : Int) : Int :=
  let m0 := month - 1
  let year := year + m0.fdiv 12
  let month := m0.fmod 12 + 1
  let y := if month ≤ 2 then year - 1 else year
  let era := y.fdiv 400
  let yearOfEra := y - era * 400
  let shifted := (month + 9).fmod 12
  let dayOfYear := (153 * shifted + 2).fdiv 5
  let dayOfEra := yearOfEra * 365 + yearOfEra.fdiv 4 - yearOfEra.fdiv 100 + dayOfYear
  era * 146097 + dayOfEra - 719468 + day - 1

def Day.toEpoch (d : Day) : Int := daysSince d.year d.month d.day

def weekday (days : Int) : Nat := ((days + 4).fmod 7).toNat

def Day.ofYear (d : Day) : Nat := (d.toEpoch - daysSince d.year 1 1 + 1).toNat

/-- The week of a day and the year it counts to: weeks start on Mondays, and the first one has the
fourth of January. -/
def week (days : Int) : Int × Nat :=
  let monday := days - ((weekday days + 6) % 7 : Nat)
  let year := (Day.ofEpoch (monday + 3)).year
  let first := daysSince year 1 4
  let start := first - ((weekday first + 6) % 7 : Nat)
  (year, ((days - start).fdiv 7).toNat + 1)

/-- A zone: how many seconds its clocks are ahead, and what it is called. -/
structure Zone where
  ahead : Int
  name : String

def Zone.utc : Zone := ⟨0, "UTC"⟩

structure Time where
  days : Int
  day : Day
  seconds : Nat
  micros : Nat
  zone : Zone
  epoch : Int

def Time.ofMicros (zone : Zone) (micros : Int) : Time :=
  let epoch := micros.fdiv 1000000
  let here := epoch + zone.ahead
  let days := here.fdiv 86400
  ⟨days, Day.ofEpoch days, (here.fmod 86400).toNat, (micros.fmod 1000000).toNat, zone, epoch⟩

def months : List String :=
  ["January", "February", "March", "April", "May", "June", "July", "August", "September", "October",
    "November", "December"]

def weekdays : List String := ["Sunday", "Monday", "Tuesday", "Wednesday", "Thursday", "Friday", "Saturday"]

end Prune.Calendar
