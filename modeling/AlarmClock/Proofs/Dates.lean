import AlarmClock.DateTime
import AlarmClock.Proofs.Years

set_option autoImplicit false

namespace AlarmClock

namespace Calendar

theorem month_start_later (year : Int) (a b : Nat) (first : 1 ≤ a) (order : a < b) (last : b ≤ 12) :
    monthStart year a + monthLength year a ≤ monthStart year b := by
  have next := month_start_succ year a first (by omega)
  have rest := month_start_mono year (a + 1) b (by omega) order last
  omega

theorem month_in_year (year : Int) (month : Nat) (first : 1 ≤ month) (last : month ≤ 12) :
    yearStart year + monthStart year month + monthLength year month ≤ yearStart (year + 1) := by
  have december := year_start_december year
  rcases Nat.lt_or_eq_of_le last with before | rfl
  · have later := month_start_later year month 12 first before (Nat.le_refl 12)
    omega
  · have days : monthLength year 12 = 31 := rfl
    omega

-- The search for the month begins `rest` days after the first of the month `first`, and ends in the same year.
theorem month_and_day_spec (year : Int) (first count rest : Nat) (begins : 1 ≤ first) (total : first + count = 13)
    (inYear : monthStart year first + rest < monthStart year 12 + 31) (month day : Nat)
    (found : monthAndDay year (List.range' first count) rest = (month, day)) :
    (⟨year, month, day⟩ : Date).Proper ∧ monthStart year month + day = monthStart year first + rest + 1 := by
  induction count generalizing first rest with
  | zero =>
      obtain rfl : first = 13 := total
      have all : monthStart year 13 = monthStart year 12 + 31 := rfl
      omega
  | succ count ih =>
      rw [List.range'_succ, monthAndDay] at found
      by_cases inside : rest < monthLength year first
      · rw [if_pos inside] at found
        obtain ⟨rfl, rfl⟩ := Prod.mk.inj found
        have last : first ≤ 12 := by omega
        exact ⟨⟨begins, last, Nat.succ_pos rest, inside⟩, (Nat.add_assoc _ rest 1).symm⟩
      · rw [if_neg inside] at found
        have before : first < 12 := by
          rcases Nat.lt_or_ge first 12 with before | last
          · exact before
          · obtain rfl : first = 12 := by omega
            have days : monthLength year 12 = 31 := rfl
            omega
        have next := month_start_succ year first begins before
        have later := ih (first + 1) (rest - monthLength year first) (by omega) (by omega) (by omega) found
        exact ⟨later.1, by omega⟩

theorem date_of_spec (day : Int) : (dateOf day).Proper ∧ dayOf (dateOf day) = day := by
  obtain ⟨begun, before⟩ := year_of_bounds day
  have december := year_start_december (yearOf day)
  have january : monthStart (yearOf day) 1 = 0 := rfl
  cases found : monthAndDay (yearOf day) months (day - yearStart (yearOf day)).toNat with
  | mk month dayOfMonth =>
      obtain ⟨proper, offset⟩ := month_and_day_spec (yearOf day) 1 12 _ (Nat.le_refl 1) rfl (by omega) month dayOfMonth found
      have date : dateOf day = ⟨yearOf day, month, dayOfMonth⟩ := by
        unfold dateOf
        simp only [found]
      rw [date]
      refine ⟨proper, ?_⟩
      simp only [dayOf]
      omega

theorem day_in_year (date : Date) (proper : date.Proper) :
    yearStart date.year ≤ dayOf date ∧ dayOf date < yearStart (date.year + 1) := by
  obtain ⟨first, last, begins, ends⟩ := proper
  have month := month_in_year date.year date.month first last
  unfold dayOf
  omega

theorem day_of_lt (a b : Date) (proper : a.Proper) (otherProper : b.Proper) (earlier : a < b) : dayOf a < dayOf b := by
  rcases earlier with year | ⟨year, month | ⟨month, day⟩⟩
  · have ends := (day_in_year a proper).2
    have order := year_start_mono (a.year + 1) b.year year
    have begins := (day_in_year b otherProper).1
    omega
  · have order := month_start_later a.year a.month b.month proper.1 month otherProper.2.1
    obtain ⟨-, -, -, ends⟩ := proper
    obtain ⟨-, -, begins, -⟩ := otherProper
    simp only [dayOf, ← year]
    omega
  · simp only [dayOf, ← year, ← month]
    omega

end Calendar

namespace Date

open Calendar

theorem lt_iff (a b : Date) : a < b ↔ a.year < b.year ∨
    a.year = b.year ∧ (a.month < b.month ∨ a.month = b.month ∧ a.day < b.day) := Iff.rfl

theorem lt_trichotomy (a b : Date) : a < b ∨ a = b ∨ b < a := by
  obtain ⟨year, month, day⟩ := a
  obtain ⟨otherYear, otherMonth, otherDay⟩ := b
  simp only [lt_iff, Date.mk.injEq]
  omega

theorem day_of_lt_iff (a b : Date) (proper : a.Proper) (otherProper : b.Proper) : dayOf a < dayOf b ↔ a < b := by
  refine ⟨fun order => ?_, day_of_lt a b proper otherProper⟩
  rcases lt_trichotomy a b with earlier | rfl | later
  · exact earlier
  · omega
  · have reverse := day_of_lt b a otherProper proper later
    omega

theorem day_of_injective (a b : Date) (proper : a.Proper) (otherProper : b.Proper) (same : dayOf a = dayOf b) : a = b := by
  rcases lt_trichotomy a b with earlier | equal | later
  · have order := day_of_lt a b proper otherProper earlier
    omega
  · exact equal
  · have order := day_of_lt b a otherProper proper later
    omega

theorem date_of_day_of (date : Date) (proper : date.Proper) : dateOf (dayOf date) = date := by
  obtain ⟨found, day⟩ := date_of_spec (dayOf date)
  exact day_of_injective _ _ found proper day

theorem in_calendar_iff (date : Date) (proper : date.Proper) :
    date.InCalendar ↔ firstDay ≤ dayOf date ∧ dayOf date ≤ lastDay := by
  obtain ⟨begins, ends⟩ := day_in_year date proper
  unfold firstDay lastDay
  constructor
  · rintro ⟨first, last, -⟩
    have low := year_start_mono (-262143) date.year first
    have high := year_start_mono (date.year + 1) 262143 (by omega)
    omega
  · rintro ⟨low, high⟩
    refine ⟨?_, ?_, proper⟩
    · apply Int.not_lt.mp
      intro before
      have order := year_start_mono (date.year + 1) (-262143) before
      omega
    · apply Int.not_lt.mp
      intro after
      have order := year_start_mono 262143 date.year after
      omega

end Date

theorem LocalTime.on_day_lt_iff (a b : Int) (nanos otherNanos : Nat) :
    onDay a nanos < onDay b otherNanos ↔ a * dayLength + nanos < b * dayLength + otherNanos := Iff.rfl

namespace DateTime

open Calendar

theorem lt_iff (a b : DateTime) : a < b ↔ a.date < b.date ∨
    a.date = b.date ∧ (a.secondOfDay < b.secondOfDay ∨ a.secondOfDay = b.secondOfDay ∧ a.nanos < b.nanos) := Iff.rfl

def Whole (t : DateTime) : Prop := t.nanos < 1000000000

theorem second_of_day_lt (t : DateTime) (clock : t.HasClockTime) : t.secondOfDay < 86400 := by
  obtain ⟨hour, minute, second⟩ := clock
  unfold secondOfDay
  omega

theorem since_midnight_lt (t : DateTime) (clock : t.HasClockTime) :
    ((Span.ofSeconds t.secondOfDay + min t.nanos 999999999 : Nat) : Int) < LocalTime.dayLength := by
  have seconds := t.second_of_day_lt clock
  simp only [Span.ofSeconds, LocalTime.dayLength]
  omega

theorem time_eq (t : DateTime) :
    t.time = LocalTime.onDay (dayOf t.date) (Span.ofSeconds t.secondOfDay + min t.nanos 999999999) := rfl

theorem day_time (t : DateTime) (clock : t.HasClockTime) : t.time.day = dayOf t.date :=
  LocalTime.day_on_day _ _ (t.since_midnight_lt clock)

theorem since_midnight_time (t : DateTime) (clock : t.HasClockTime) :
    t.time.sinceMidnight = Span.ofSeconds t.secondOfDay + min t.nanos 999999999 :=
  LocalTime.since_midnight_on_day _ _ (t.since_midnight_lt clock)

theorem in_calendar_time (t : DateTime) (inside : t.InCalendar) : t.time.InCalendar := by
  unfold LocalTime.InCalendar
  rw [t.day_time inside.2.1]
  exact (t.date.in_calendar_iff inside.1.2.2).mp inside.1

-- A leap second is not told from the nanosecond before it, but no time outside of leap seconds lies between the two.
theorem time_lt_iff (a b : DateTime) (inside : a.InCalendar) (otherInside : b.InCalendar) (whole : b.Whole) :
    a.time < b.time ↔ a < b := by
  obtain ⟨⟨-, -, proper⟩, clock, -⟩ := inside
  obtain ⟨⟨-, -, otherProper⟩, otherClock, -⟩ := otherInside
  have seconds := a.second_of_day_lt clock
  have otherSeconds := b.second_of_day_lt otherClock
  have dates := Date.day_of_lt_iff a.date b.date proper otherProper
  have same : a.date = b.date ↔ dayOf a.date = dayOf b.date :=
    ⟨congrArg dayOf, Date.day_of_injective a.date b.date proper otherProper⟩
  unfold Whole at whole
  rw [lt_iff, ← dates, same, time_eq, time_eq, LocalTime.on_day_lt_iff]
  simp only [Span.ofSeconds, LocalTime.dayLength]
  omega

theorem parts_time (t : DateTime) (proper : t.date.Proper) (clock : t.HasClockTime) (whole : t.Whole) : t.time.parts = t := by
  have date : t.time.date = t.date := by
    rw [LocalTime.date, t.day_time clock, t.date.date_of_day_of proper]
  have since := t.since_midnight_time clock
  obtain ⟨hour, minute, second⟩ := clock
  unfold Whole at whole
  obtain ⟨when, hours, minutes, seconds, nanos⟩ := t
  simp only [LocalTime.parts, date, LocalTime.hour, LocalTime.minute, LocalTime.second, since, Span.seconds, Span.fraction,
    Span.ofSeconds, secondOfDay, DateTime.mk.injEq, true_and] at hour minute second whole ⊢
  omega

end DateTime

namespace LocalTime

open Calendar

theorem since_midnight_lt (time : LocalTime) : time.sinceMidnight < 86400000000000 := by
  simp only [sinceMidnight, dayLength]
  omega

theorem parts_clock (time : LocalTime) : time.parts.HasClockTime ∧ time.parts.Whole := by
  have bound := time.since_midnight_lt
  simp only [parts, DateTime.HasClockTime, DateTime.Whole, hour, minute, second, Span.seconds, Span.fraction]
  omega

theorem time_parts (time : LocalTime) : time.parts.time = time := by
  have day : dayOf time.parts.date = time.day := (date_of_spec time.day).2
  have nanos : Span.ofSeconds time.parts.secondOfDay + min time.parts.nanos 999999999 = time.sinceMidnight := by
    simp only [parts, DateTime.secondOfDay, hour, minute, second, Span.seconds, Span.fraction, Span.ofSeconds]
    omega
  rw [DateTime.time_eq, day, nanos, on_day_of_parts]

theorem parts_in_calendar_iff (time : LocalTime) : time.parts.InCalendar ↔ time.InCalendar := by
  obtain ⟨proper, day⟩ := date_of_spec time.day
  obtain ⟨clock, whole⟩ := time.parts_clock
  have dates : time.parts.date.InCalendar ↔ time.InCalendar := by
    rw [Date.in_calendar_iff time.parts.date proper, InCalendar]
    change firstDay ≤ dayOf (dateOf time.day) ∧ dayOf (dateOf time.day) ≤ lastDay ↔ _
    rw [day]
  rw [← dates]
  exact ⟨fun inside => inside.1, fun date => ⟨date, clock, Nat.lt_trans whole (by decide)⟩⟩

theorem lt_parts_iff (t : DateTime) (time : LocalTime) (shown : t.InCalendar) (inside : time.InCalendar) :
    t.time < time ↔ t < time.parts := by
  have order := t.time_lt_iff time.parts shown (time.parts_in_calendar_iff.mpr inside) time.parts_clock.2
  rwa [time.time_parts] at order

theorem parts_lt_iff (a b : LocalTime) (inside : a.InCalendar) (otherInside : b.InCalendar) :
    a < b ↔ a.parts < b.parts := by
  have order := lt_parts_iff a.parts b (a.parts_in_calendar_iff.mpr inside) otherInside
  rwa [a.time_parts] at order

theorem parts_injective (a b : LocalTime) (same : a.parts = b.parts) : a = b := by
  rw [← a.time_parts, same, b.time_parts]

theorem parts_second_of_day (time : LocalTime) : time.parts.secondOfDay = Span.seconds time.sinceMidnight := by
  simp only [parts, DateTime.secondOfDay, hour, minute, second]
  omega

theorem since_reading (time : LocalTime) (start : DateTime) :
    let passed := time.nanos - (dayOf start.date * dayLength + (start.secondOfDay * 1000000000 + start.nanos : Nat))
    time.parts.since start =
      if start.secondOfDay < Span.seconds time.sinceMidnight ∧ 1000000000 ≤ start.nanos then passed + 1000000000
      else passed := by
  have day : dayOf time.parts.date = time.day := (date_of_spec time.day).2
  have whole : ¬ 1000000000 ≤ time.parts.nanos := Nat.not_le.mpr time.parts_clock.2
  have nanos : (time.nanos : Int) = time.day * dayLength + time.sinceMidnight := by
    conv_lhs => rw [← time.on_day_of_parts]
    rfl
  have split : time.sinceMidnight = Span.seconds time.sinceMidnight * 1000000000 + time.parts.nanos :=
    (Nat.div_add_mod' time.sinceMidnight 1000000000).symm
  simp only [DateTime.since, day, parts_second_of_day, nanos, Int.sub_mul]
  split_ifs with leap later
  · omega
  · exact absurd later.2 whole
  · omega

-- Outside of leap seconds the difference is the one of the two times, and a leap second adds less than a second to it.
theorem since_near (time : LocalTime) (start : DateTime) (bounded : start.nanos < 2000000000) :
    time.nanos - start.time.nanos ≤ time.parts.since start + 1000000000 := by
  have reading : start.time.nanos =
      dayOf start.date * dayLength + (start.secondOfDay * 1000000000 + min start.nanos 999999999 : Nat) := rfl
  rw [since_reading, reading]
  split_ifs <;> omega

end LocalTime

end AlarmClock
