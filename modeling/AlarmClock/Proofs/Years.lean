import AlarmClock.Zone
import Mathlib.Tactic.IntervalCases

set_option autoImplicit false

namespace AlarmClock

namespace Calendar

theorem year_start_mono (a b : Int) (order : a ≤ b) : yearStart a ≤ yearStart b := by
  unfold yearStart
  omega

-- The guess may be off by one on either side.
theorem year_of_bounds (day : Int) : yearStart (yearOf day) ≤ day ∧ day < yearStart (yearOf day + 1) := by
  unfold yearOf
  dsimp only
  have low : yearStart ((day + 719527) * 400 / 146097 - 1) ≤ day := by
    unfold yearStart
    omega
  have high : day < yearStart ((day + 719527) * 400 / 146097 + 1 + 1) := by
    unfold yearStart
    omega
  generalize (day + 719527) * 400 / 146097 = guess at low high ⊢
  by_cases before : day < yearStart guess
  · rw [if_pos before, Int.sub_add_cancel]
    exact ⟨low, before⟩
  · rw [if_neg before]
    by_cases past : yearStart (guess + 1) ≤ day
    · rw [if_pos past]
      exact ⟨past, high⟩
    · rw [if_neg past]
      exact ⟨Int.not_lt.mp before, Int.not_le.mp past⟩

theorem year_of_eq (day year : Int) (begun : yearStart year ≤ day) (before : day < yearStart (year + 1)) :
    yearOf day = year := by
  obtain ⟨low, high⟩ := year_of_bounds day
  rcases Int.lt_trichotomy (yearOf day) year with earlier | same | later
  · have ended := year_start_mono (yearOf day + 1) year earlier
    omega
  · exact same
  · have ended := year_start_mono (year + 1) (yearOf day) later
    omega

theorem month_length_bounds (year : Int) (month : Nat) : 28 ≤ monthLength year month ∧ monthLength year month ≤ 31 := by
  unfold monthLength
  split
  · split
    · decide
    · decide
  · decide
  · decide
  · decide
  · decide
  · decide

theorem month_start_succ (year : Int) (month : Nat) (first : 1 ≤ month) (last : month < 12) :
    monthStart year (month + 1) = monthStart year month + monthLength year month := by
  interval_cases month <;> rfl

theorem month_start_mono (year : Int) (a b : Nat) (first : 1 ≤ a) (order : a ≤ b) (last : b ≤ 12) :
    monthStart year a + 28 * (b - a) ≤ monthStart year b := by
  induction b, order using Nat.le_induction with
  | base => omega
  | succ b order ih =>
      have next := month_start_succ year b (by omega) (by omega)
      have length := (month_length_bounds year b).1
      have before := ih (by omega)
      omega

theorem year_start_december (year : Int) : yearStart year + monthStart year 12 + 31 = yearStart (year + 1) := by
  have days : monthStart year 12 = 306 + monthLength year 2 := by
    change 0 + 31 + monthLength year 2 + 31 + 30 + 31 + 30 + 31 + 31 + 30 + 31 + 30 = _
    omega
  rw [year_start_succ, days]
  simp only [monthLength]
  cases isLeap year with
  | false =>
      simp only [Bool.false_eq_true, if_false]
      omega
  | true =>
      simp only [if_true]
      omega

theorem year_start_cycle (year cycles : Int) : yearStart (year + 400 * cycles) = yearStart year + 146097 * cycles := by
  unfold yearStart
  omega

theorem is_leap_cycle (year cycles : Int) : isLeap (year + 400 * cycles) = isLeap year := by
  have four : (year + 400 * cycles) % 4 = year % 4 := by omega
  have hundred : (year + 400 * cycles) % 100 = year % 100 := by omega
  simp only [isLeap, four, hundred, Int.add_mul_emod_self_left]

theorem month_length_cycle (year cycles : Int) : monthLength (year + 400 * cycles) = monthLength year := by
  funext month
  simp only [monthLength, is_leap_cycle]

-- The days of 400 years make whole weeks.
theorem weekday_cycle (day cycles : Int) : weekday (day + 146097 * cycles) = weekday day := by
  have same : (day + 146097 * cycles + 4) % 7 = (day + 4) % 7 := by omega
  rw [weekday, same, weekday]

theorem day_of_cycle (year cycles : Int) (month day : Nat) :
    dayOf ⟨year + 400 * cycles, month, day⟩ = dayOf ⟨year, month, day⟩ + 146097 * cycles := by
  simp only [dayOf, monthStart, year_start_cycle, month_length_cycle]
  omega

theorem year_in_cycle (year : Int) : ∃ first cycles : Int, year = first + 400 * cycles ∧ 2000 ≤ first ∧ first < 2400 :=
  ⟨2000 + (year - 2000) % 400, (year - 2000) / 400, by omega, by omega, by omega⟩

end Calendar

namespace ChangeRule

open Calendar

-- A rule that names a day in each year, and a time less than a week from the midnight that begins the day.
structure Proper (rule : ChangeRule) : Prop where
  month : 1 ≤ rule.month ∧ rule.month ≤ 12
  week : 1 ≤ rule.week ∧ rule.week ≤ 5
  seconds : -604800 < rule.seconds ∧ rule.seconds < 604800

theorem day_in_month (rule : ChangeRule) (year : Int) (proper : rule.Proper) :
    yearStart year + monthStart year rule.month ≤ rule.day year ∧
      rule.day year < yearStart year + monthStart year rule.month + monthLength year rule.month := by
  obtain ⟨first, last⟩ := proper.week
  have length := (month_length_bounds year rule.month).1
  have begins : dayOf ⟨year, rule.month, 1⟩ = yearStart year + monthStart year rule.month := by
    simp only [dayOf]
    omega
  unfold day
  dsimp only
  rw [begins]
  have inWeek : (rule.weekday + 7 - (Calendar.weekday (yearStart year + monthStart year rule.month)).index) % 7 < 7 :=
    Nat.mod_lt _ (by decide)
  generalize (rule.weekday + 7 - (Calendar.weekday (yearStart year + monthStart year rule.month)).index) % 7 = offset
    at inWeek ⊢
  by_cases inside : offset + 7 * (rule.week - 1) < monthLength year rule.month
  · rw [if_pos inside]
    omega
  · rw [if_neg inside]
    omega

theorem local_second_cycle (rule : ChangeRule) (year cycles : Int) :
    rule.localSecond (year + 400 * cycles) = rule.localSecond year + 12622780800 * cycles := by
  simp only [localSecond, day, day_of_cycle, weekday_cycle, month_length_cycle]
  omega

end ChangeRule
end AlarmClock
