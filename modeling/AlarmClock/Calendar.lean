import AlarmClock.Weekday

set_option autoImplicit false

namespace AlarmClock

structure Date where
  year : Int
  month : Nat
  day : Nat
deriving DecidableEq, Repr

namespace Calendar

def isLeap (year : Int) : Bool := year % 4 == 0 && (year % 100 != 0 || year % 400 == 0)

def monthLength (year : Int) : Nat → Nat
  | 2 => if isLeap year then 29 else 28
  | 4 | 6 | 9 | 11 => 30
  | _ => 31

def yearStart (year : Int) : Int :=
  365 * year + (year - 1) / 4 - (year - 1) / 100 + (year - 1) / 400 - 719527

/-- The year a day lies in. A cycle of 400 years has 146097 days, which gives the year to within one. -/
def yearOf (day : Int) : Int :=
  let guess := (day + 719527) * 400 / 146097
  if day < yearStart guess then guess - 1
  else if yearStart (guess + 1) ≤ day then guess + 1
  else guess

def monthAndDay (year : Int) : List Nat → Nat → Nat × Nat
  | [], rest => (12, rest + 1)
  | month :: later, rest =>
      if rest < monthLength year month then (month, rest + 1)
      else monthAndDay year later (rest - monthLength year month)

def months : List Nat := [1, 2, 3, 4, 5, 6, 7, 8, 9, 10, 11, 12]

def dateOf (day : Int) : Date :=
  let year := yearOf day
  let (month, dayOfMonth) := monthAndDay year months (day - yearStart year).toNat
  ⟨year, month, dayOfMonth⟩

def monthStart (year : Int) (month : Nat) : Nat :=
  ((months.takeWhile (· < month)).map (monthLength year)).foldl (· + ·) 0

def dayOf (date : Date) : Int := yearStart date.year + monthStart date.year date.month + date.day - 1

def weekday (day : Int) : Weekday := Weekday.fromSunday ((day + 4) % 7).toNat

def firstDay : Int := yearStart (-262143)
def lastDay : Int := yearStart 262143 - 1

theorem weekday_add (day : Int) (count : Nat) :
    weekday (day + count) = (weekday day).forward count := by
  apply Weekday.index_injective
  simp only [weekday, Weekday.forward, Weekday.index_from_sunday]
  omega

theorem year_start_succ (year : Int) :
    yearStart (year + 1) = yearStart year + (if isLeap year then 366 else 365) := by
  have leap : isLeap year = true ↔ year % 4 = 0 ∧ (year % 100 ≠ 0 ∨ year % 400 = 0) := by
    simp [isLeap]
  unfold yearStart
  split <;> rename_i h
  · have := leap.mp h
    omega
  · have := mt leap.mpr h
    omega

end Calendar
end AlarmClock
