import AlarmClock.AlarmSet
import AlarmClock.LocalTime

set_option autoImplicit false

namespace AlarmClock

structure NextAlarm where
  slot : Nat
  due : LocalTime
deriving DecidableEq, Repr

def Alarm.onDay (alarm : Alarm) (day : Int) : LocalTime :=
  LocalTime.onDay day (Span.ofSeconds alarm.secondOfDay)

/-- The number of days from `now` to the day of the alarm's next ringing. Seven days later is the same
weekday again, for an alarm whose only day is today and whose time has passed. -/
def Alarm.daysAhead? (alarm : Alarm) (now : LocalTime) : Option Nat :=
  -- at the very second of the alarm it has already rung
  let stillToday := decide (now < alarm.onDay now.day)
  if alarm.isOneShot then some (if stillToday then 0 else 1)
  else
    (List.range 8).find? fun ahead =>
      alarm.days.contains (now.weekday.forward ahead) && (0 < ahead || stillToday)

def Alarm.nextOccurrence? (alarm : Alarm) (now : LocalTime) : Option LocalTime :=
  (alarm.daysAhead? now).bind (alarm.onDay now.day).addDays?

def NextAlarm.earlier (a b : NextAlarm) : NextAlarm := if b.due < a.due then b else a

def findNextFrom (now : LocalTime) : Nat → List Alarm → Option NextAlarm
  | _, [] => none
  | slot, alarm :: rest =>
      let later := findNextFrom now (slot + 1) rest
      if alarm.enabled then
        match alarm.nextOccurrence? now with
        | none => later
        | some due => some (later.elim ⟨slot, due⟩ (NextAlarm.earlier ⟨slot, due⟩))
      else later

def findNext (alarms : List Alarm) (now : LocalTime) : Option NextAlarm := findNextFrom now 0 alarms

end AlarmClock
