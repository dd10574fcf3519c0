import AlarmClock.Calendar
import AlarmClock.Text

set_option autoImplicit false

namespace AlarmClock

namespace Span

def ofSeconds (seconds : Nat) : Nat := seconds * 1000000000

def seconds (span : Nat) : Nat := span / 1000000000

def fraction (span : Nat) : Nat := span % 1000000000

end Span

def yearText (year : Int) : String :=
  if 0 ≤ year ∧ year ≤ 9999 then zeroPadded 4 year.toNat
  else (if year < 0 then "-" else "+") ++ zeroPadded 4 year.natAbs

def Date.text (date : Date) : String :=
  yearText date.year ++ "-" ++ twoDigits date.month ++ "-" ++ twoDigits date.day

/-- The wall-clock reading `nanos` nanoseconds after midnight on 1 January 1970. -/
structure LocalTime where
  nanos : Int
deriving DecidableEq, Repr

namespace LocalTime

def dayLength : Int := 86400000000000

instance : LE LocalTime := ⟨fun a b => a.nanos ≤ b.nanos⟩
instance : LT LocalTime := ⟨fun a b => a.nanos < b.nanos⟩
instance (a b : LocalTime) : Decidable (a ≤ b) := inferInstanceAs (Decidable (a.nanos ≤ b.nanos))
instance (a b : LocalTime) : Decidable (a < b) := inferInstanceAs (Decidable (a.nanos < b.nanos))

def onDay (day : Int) (nanos : Nat) : LocalTime := ⟨day * dayLength + nanos⟩

def ofParts (date : Date) (hour minute second nanos : Nat) : LocalTime :=
  onDay (Calendar.dayOf date) (Span.ofSeconds (hour * 3600 + minute * 60 + second) + nanos)

def day (time : LocalTime) : Int := time.nanos / dayLength

def sinceMidnight (time : LocalTime) : Nat := (time.nanos % dayLength).toNat

def weekday (time : LocalTime) : Weekday := Calendar.weekday time.day

def date (time : LocalTime) : Date := Calendar.dateOf time.day

def hour (time : LocalTime) : Nat := Span.seconds time.sinceMidnight / 3600
def minute (time : LocalTime) : Nat := Span.seconds time.sinceMidnight / 60 % 60
def second (time : LocalTime) : Nat := Span.seconds time.sinceMidnight % 60

def InCalendar (time : LocalTime) : Prop := Calendar.firstDay ≤ time.day ∧ time.day ≤ Calendar.lastDay

instance (time : LocalTime) : Decidable time.InCalendar := inferInstanceAs (Decidable (_ ∧ _))

def addNanos (time : LocalTime) (nanos : Int) : LocalTime := ⟨time.nanos + nanos⟩

def addSeconds (time : LocalTime) (seconds : Int) : LocalTime := time.addNanos (seconds * 1000000000)

def addDays (time : LocalTime) (days : Nat) : LocalTime := time.addNanos (days * dayLength)

def addDays? (time : LocalTime) (days : Nat) : Option LocalTime :=
  if (time.addDays days).day ≤ Calendar.lastDay then some (time.addDays days) else none

def clockText (time : LocalTime) : String := twoDigits time.hour ++ ":" ++ twoDigits time.minute

def fractionText (nanos : Nat) : String :=
  if nanos = 0 then ""
  else if nanos % 1000000 = 0 then "." ++ zeroPadded 3 (nanos / 1000000)
  else if nanos % 1000 = 0 then "." ++ zeroPadded 6 (nanos / 1000)
  else "." ++ zeroPadded 9 nanos

def text (time : LocalTime) : String :=
  time.date.text ++ " " ++ time.clockText ++ ":" ++ twoDigits time.second ++
    fractionText (Span.fraction time.sinceMidnight)

theorem on_day_of_parts (time : LocalTime) : onDay time.day time.sinceMidnight = time := by
  obtain ⟨nanos⟩ := time
  simp only [onDay, day, sinceMidnight, dayLength, LocalTime.mk.injEq]
  omega

theorem day_on_day (day : Int) (nanos : Nat) (short : (nanos : Int) < dayLength) :
    (onDay day nanos).day = day := by
  simp only [onDay, LocalTime.day, dayLength] at short ⊢
  omega

theorem since_midnight_on_day (day : Int) (nanos : Nat) (short : (nanos : Int) < dayLength) :
    (onDay day nanos).sinceMidnight = nanos := by
  simp only [onDay, sinceMidnight, dayLength] at short ⊢
  omega

end LocalTime
end AlarmClock
