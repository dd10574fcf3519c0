import AlarmClock.DateTime
import AlarmClock.Zone

set_option autoImplicit false

namespace AlarmClock

structure Clock where
  now : LocalTime
  untilTime : LocalTime → Nat

namespace Clock

def plain (now : DateTime) : Clock := ⟨now.time, fun time => (time.parts.since now).toNat⟩

def skewed (now : DateTime) (skew : Nat) : Clock := ⟨now.time, fun time => (time.parts.since now).toNat - skew⟩

def inZone (zone : Zone) (instant : Moment) : Clock :=
  ⟨zone.localTime instant, fun time =>
    match zone.resolve? time with
    | some moment => (moment.nanos - instant.nanos).toNat
    | none => 0⟩

end Clock

inductive WallClock where
  | manual (now : DateTime) (skew : Nat)
  | zoned (zone : Zone) (instant : Moment)
deriving DecidableEq, Repr

namespace WallClock

def reading : WallClock → Clock
  | .manual now skew => Clock.skewed now skew
  | .zoned zone instant => Clock.inZone zone instant

def set (time : DateTime) : WallClock → WallClock
  | .manual _ skew => .manual time skew
  | .zoned zone _ => .zoned zone ⟨time.time.nanos⟩

def advance (seconds : Int) : WallClock → WallClock
  | .manual now skew => .manual (now.addSeconds seconds) skew
  | .zoned zone instant => .zoned zone ⟨instant.nanos + seconds * 1000000000⟩

def setSkew (skew : Nat) : WallClock → WallClock
  | .manual now _ => .manual now skew
  | .zoned zone instant => .zoned zone instant

def InCalendar : WallClock → Prop
  | .manual now _ => now.time.InCalendar
  | .zoned _ instant => (LocalTime.mk instant.nanos).InCalendar

instance : (clock : WallClock) → Decidable clock.InCalendar
  | .manual now _ => inferInstanceAs (Decidable now.time.InCalendar)
  | .zoned _ instant => inferInstanceAs (Decidable (LocalTime.mk instant.nanos).InCalendar)

def Runs : WallClock → Prop
  | .manual _ _ => True
  | .zoned _ instant => 0 ≤ instant.nanos

instance : (clock : WallClock) → Decidable clock.Runs
  | .manual _ _ => inferInstanceAs (Decidable True)
  | .zoned _ instant => inferInstanceAs (Decidable (0 ≤ instant.nanos))

def Shows (clock : WallClock) : Prop := clock.Runs ∧ clock.reading.now.InCalendar

instance (clock : WallClock) : Decidable clock.Shows := inferInstanceAs (Decidable (_ ∧ _))

def Tells (time : LocalTime) : WallClock → Prop
  | .manual _ _ => True
  | .zoned zone instant => 0 ≤ instant.nanos ∨ zone.resolve? time = none

instance (time : LocalTime) : (clock : WallClock) → Decidable (clock.Tells time)
  | .manual _ _ => inferInstanceAs (Decidable True)
  | .zoned zone instant => inferInstanceAs (Decidable (0 ≤ instant.nanos ∨ zone.resolve? time = none))

end WallClock
end AlarmClock
