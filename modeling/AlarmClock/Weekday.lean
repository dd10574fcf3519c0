set_option autoImplicit false

namespace AlarmClock

inductive Weekday where
  | sunday | monday | tuesday | wednesday | thursday | friday | saturday
deriving DecidableEq, Repr

namespace Weekday

def index : Weekday → Nat
  | .sunday => 0
  | .monday => 1
  | .tuesday => 2
  | .wednesday => 3
  | .thursday => 4
  | .friday => 5
  | .saturday => 6

def ofIndex? : Nat → Option Weekday
  | 0 => some .sunday
  | 1 => some .monday
  | 2 => some .tuesday
  | 3 => some .wednesday
  | 4 => some .thursday
  | 5 => some .friday
  | 6 => some .saturday
  | _ => none

def fromSunday (count : Nat) : Weekday := (ofIndex? (count % 7)).getD .sunday

def forward (day : Weekday) (count : Nat) : Weekday := fromSunday (day.index + count)

def weekFrom (day : Weekday) : List Weekday := (List.range 7).map day.forward

def span (first last : Weekday) : List Weekday :=
  (List.range ((last.index + 7 - first.index) % 7 + 1)).map first.forward

def fullName : Weekday → String
  | .sunday => "Sunday"
  | .monday => "Monday"
  | .tuesday => "Tuesday"
  | .wednesday => "Wednesday"
  | .thursday => "Thursday"
  | .friday => "Friday"
  | .saturday => "Saturday"

def name : Weekday → String
  | .sunday => "Sun"
  | .monday => "Mon"
  | .tuesday => "Tue"
  | .wednesday => "Wed"
  | .thursday => "Thu"
  | .friday => "Fri"
  | .saturday => "Sat"

def shortName : Weekday → String
  | .sunday => "Su"
  | .monday => "Mo"
  | .tuesday => "Tu"
  | .wednesday => "We"
  | .thursday => "Th"
  | .friday => "Fr"
  | .saturday => "Sa"

theorem index_lt (day : Weekday) : day.index < 7 := by cases day <;> decide

theorem of_index_index (day : Weekday) : ofIndex? day.index = some day := by cases day <;> rfl

theorem index_from_sunday (count : Nat) : (fromSunday count).index = count % 7 := by
  have bound : count % 7 < 7 := Nat.mod_lt _ (by decide)
  unfold fromSunday
  generalize count % 7 = k at bound
  match k, bound with
  | 0, _ | 1, _ | 2, _ | 3, _ | 4, _ | 5, _ | 6, _ => rfl

theorem index_forward (day : Weekday) (count : Nat) :
    (day.forward count).index = (day.index + count) % 7 := index_from_sunday _

theorem forward_zero (day : Weekday) : day.forward 0 = day := by cases day <;> rfl

theorem index_injective {a b : Weekday} (same : a.index = b.index) : a = b := by
  have := congrArg ofIndex? same
  simpa [of_index_index] using this

end Weekday
end AlarmClock
