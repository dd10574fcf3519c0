import AlarmClock.LocalTime

set_option autoImplicit false

namespace AlarmClock

/-- An instant: nanoseconds since the beginning of 1 January 1970, UTC. -/
structure Moment where
  nanos : Int
deriving DecidableEq, Repr

/-- The `week`-th weekday (counted from Sunday) of a month, 5 meaning the last, and seconds after the
local midnight that begins this day. -/
structure ChangeRule where
  month : Nat
  week : Nat
  weekday : Nat
  seconds : Int
deriving DecidableEq, Repr

namespace ChangeRule

def day (rule : ChangeRule) (year : Int) : Int :=
  let first := Calendar.dayOf ⟨year, rule.month, 1⟩
  let offset := (rule.weekday + 7 - (Calendar.weekday first).index) % 7
  let length := Calendar.monthLength year rule.month
  let ordinal := offset + 7 * (rule.week - 1)
  first + (if ordinal < length then ordinal else ordinal - 7 : Nat)

def localSecond (rule : ChangeRule) (year : Int) : Int := rule.day year * 86400 + rule.seconds

end ChangeRule

inductive Zone where
  | fixed (offset : Int)
  | seasonal (standard summer : Int) (toSummer toStandard : ChangeRule)
deriving DecidableEq, Repr

inductive LocalMeaning where
  | unique (offset : Int)
  | skipped
  /-- The clock is moved back over it; the offsets are in the order in which they are tried. -/
  | repeated (first second : Int)
deriving DecidableEq, Repr

namespace Zone

def utc : Zone := .fixed 0

def offsetAt (zone : Zone) (instant : Moment) : Int :=
  match zone with
  | .fixed offset => offset
  | .seasonal standard summer toSummer toStandard =>
      let second := instant.nanos / 1000000000
      let year := Calendar.yearOf (second / 86400)
      let summerStart := fun y => toSummer.localSecond y - standard
      let summerEnd := fun y => toStandard.localSecond y - summer
      -- a change near the turn of the year may fall into another year of UTC
      let years := [year - 1, year, year + 1]
      let isSummer :=
        if summerStart year ≤ summerEnd year then
          years.any fun y => summerStart y ≤ second && second < summerEnd y
        else !years.any fun y => summerEnd y ≤ second && second < summerStart y
      if isSummer then summer else standard

def meaning (zone : Zone) (time : LocalTime) : LocalMeaning :=
  match zone with
  | .fixed offset => .unique offset
  | .seasonal standard summer toSummer toStandard =>
      let second := time.nanos / 1000000000
      let year := Calendar.yearOf time.day
      let gap := summer - standard
      let forward := toSummer.localSecond year
      let back := toStandard.localSecond year
      -- the months alone say which change comes first in the year; two changes in one month count as if the
      -- one back came first
      if toSummer.month < toStandard.month then
        if second ≤ forward then .unique standard
        else if second < forward + gap then .skipped
        else if second < back - gap then .unique summer
        else if second ≤ back then .repeated standard summer
        else .unique standard
      else
        if second < back - gap then .unique summer
        else if second ≤ back then .repeated standard summer
        else if second < forward then .unique standard
        else if second < forward + gap then .skipped
        else .unique summer

def localTime (zone : Zone) (instant : Moment) : LocalTime :=
  ⟨instant.nanos + zone.offsetAt instant * 1000000000⟩

def momentAt? (time : LocalTime) (offset : Int) : Option Moment :=
  if (time.addSeconds (-offset)).InCalendar then some ⟨(time.addSeconds (-offset)).nanos⟩ else none

def listed? (zone : Zone) (time : LocalTime) : Option Moment :=
  match zone.meaning time with
  | .unique offset => momentAt? time offset
  | .skipped => none
  | .repeated first second => do
      let moment ← momentAt? time first
      let _ ← momentAt? time second
      some moment

def resolve? (zone : Zone) (time : LocalTime) : Option Moment :=
  match zone.listed? time with
  | some moment => some moment
  | none => if (time.addSeconds 3600).InCalendar then zone.listed? (time.addSeconds 3600) else none

end Zone
end AlarmClock
