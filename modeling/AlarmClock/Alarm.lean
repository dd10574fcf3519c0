import AlarmClock.Days
import AlarmClock.Text

set_option autoImplicit false

namespace AlarmClock

structure Alarm where
  hour : UInt8
  minute : UInt8
  days : Days
  enabled : Bool
deriving DecidableEq, Repr

def isTimeOfDay (hour minute : UInt8) : Bool := hour ≤ 23 && minute ≤ 59

namespace Alarm

def default : Alarm := ⟨7, 0, Days.once, false⟩

instance : Inhabited Alarm := ⟨default⟩

def HasTime (alarm : Alarm) : Prop := alarm.hour ≤ 23 ∧ alarm.minute ≤ 59

instance (alarm : Alarm) : Decidable alarm.HasTime := inferInstanceAs (Decidable (_ ∧ _))

def Valid (alarm : Alarm) : Prop := alarm.HasTime ∧ alarm.days.Valid

instance (alarm : Alarm) : Decidable alarm.Valid := inferInstanceAs (Decidable (_ ∧ _))

def secondOfDay (alarm : Alarm) : Nat :=
  if alarm.HasTime then alarm.hour.toNat * 3600 + alarm.minute.toNat * 60 else 0

def isOneShot (alarm : Alarm) : Bool := alarm.days.isOnce

theorem second_of_day_lt (alarm : Alarm) : alarm.secondOfDay < 86400 := by
  unfold secondOfDay
  split
  · rename_i time
    have hours := UInt8.le_iff_toNat_le.mp time.1
    have minutes := UInt8.le_iff_toNat_le.mp time.2
    simp only [UInt8.toNat_ofNat] at hours minutes
    omega
  · omega

theorem default_valid : default.Valid := by decide

end Alarm

inductive Edit where
  | setTime (hour minute : UInt8)
  | setEnabled (on : Bool)
  | setDays (days : Days)
  | setDay (day : Weekday) (on : Bool)
deriving DecidableEq, Repr

namespace Edit

def Allowed : Edit → Prop
  | .setTime hour minute => isTimeOfDay hour minute = true
  | .setEnabled _ | .setDays _ | .setDay _ _ => True

instance : (edit : Edit) → Decidable edit.Allowed
  | .setTime hour minute => inferInstanceAs (Decidable (isTimeOfDay hour minute = true))
  | .setEnabled _ | .setDays _ | .setDay _ _ => inferInstanceAs (Decidable True)

def apply : Edit → Alarm → Alarm
  | .setTime hour minute, alarm => { alarm with hour := hour, minute := minute }
  | .setEnabled on, alarm => { alarm with enabled := on }
  | .setDays days, alarm => { alarm with days := days }
  | .setDay day on, alarm => { alarm with days := alarm.days.set day on }

theorem apply_has_time (edit : Edit) (alarm : Alarm) (allowed : edit.Allowed) (time : alarm.HasTime) :
    (edit.apply alarm).HasTime := by
  cases edit with
  | setTime hour minute =>
      simpa [Allowed, isTimeOfDay, Alarm.HasTime, apply] using allowed
  | setEnabled _ | setDays _ | setDay _ _ => exact time

end Edit
end AlarmClock
