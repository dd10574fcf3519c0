import AlarmClock.LocalTime

set_option autoImplicit false

namespace AlarmClock

structure DateTime where
  date : Date
  hour : Nat
  minute : Nat
  second : Nat
  nanos : Nat
deriving DecidableEq, Repr

namespace Date

def Proper (date : Date) : Prop :=
  1 ≤ date.month ∧ date.month ≤ 12 ∧ 1 ≤ date.day ∧ date.day ≤ Calendar.monthLength date.year date.month

instance (date : Date) : Decidable date.Proper := inferInstanceAs (Decidable (_ ∧ _))

def InCalendar (date : Date) : Prop := -262143 ≤ date.year ∧ date.year ≤ 262142 ∧ date.Proper

instance (date : Date) : Decidable date.InCalendar := inferInstanceAs (Decidable (_ ∧ _))

instance : LT Date :=
  ⟨fun a b => a.year < b.year ∨ a.year = b.year ∧ (a.month < b.month ∨ a.month = b.month ∧ a.day < b.day)⟩

def weekday (date : Date) : Weekday := Calendar.weekday (Calendar.dayOf date)

end Date

namespace DateTime

def secondOfDay (t : DateTime) : Nat := t.hour * 3600 + t.minute * 60 + t.second

def HasClockTime (t : DateTime) : Prop := t.hour < 24 ∧ t.minute < 60 ∧ t.second < 60

instance (t : DateTime) : Decidable t.HasClockTime := inferInstanceAs (Decidable (_ ∧ _))

def InCalendar (t : DateTime) : Prop := t.date.InCalendar ∧ t.HasClockTime ∧ t.nanos < 2000000000

instance (t : DateTime) : Decidable t.InCalendar := inferInstanceAs (Decidable (_ ∧ _))

instance : LT DateTime :=
  ⟨fun a b => a.date < b.date ∨
    a.date = b.date ∧ (a.secondOfDay < b.secondOfDay ∨ a.secondOfDay = b.secondOfDay ∧ a.nanos < b.nanos)⟩

/-- A leap second counts as the last nanosecond before the next full second: the same full seconds are still to
come. -/
def time (t : DateTime) : LocalTime := .ofParts t.date t.hour t.minute t.second (min t.nanos 999999999)

-- Whether a leap second counts is decided by the times of day alone, also for readings on different days.
def since (time start : DateTime) : Int :=
  let days := Calendar.dayOf time.date - Calendar.dayOf start.date
  let leap : Int :=
    if start.secondOfDay < time.secondOfDay ∧ 1000000000 ≤ start.nanos then 1
    else if time.secondOfDay < start.secondOfDay ∧ 1000000000 ≤ time.nanos then -1
    else 0
  days * LocalTime.dayLength + ((time.secondOfDay : Int) - start.secondOfDay + leap) * 1000000000 +
    (time.nanos - start.nanos)

end DateTime

def LocalTime.parts (time : LocalTime) : DateTime :=
  ⟨time.date, time.hour, time.minute, time.second, Span.fraction time.sinceMidnight⟩

-- A reading that leaves its leap second goes on as if that had never been there.
def DateTime.addSeconds (t : DateTime) (seconds : Int) : DateTime :=
  if seconds = 0 then t
  else
    let full : Int := if seconds < 0 ∧ 1000000000 ≤ t.nanos then t.secondOfDay + 1 else t.secondOfDay
    LocalTime.parts
      ⟨Calendar.dayOf t.date * LocalTime.dayLength + (full + seconds) * 1000000000 + (t.nanos % 1000000000 : Nat)⟩

end AlarmClock
