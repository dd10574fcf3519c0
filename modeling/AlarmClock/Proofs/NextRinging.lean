import AlarmClock.Proofs.Dates
import AlarmClock.Proofs.Occurrence

set_option autoImplicit false

namespace AlarmClock.Alarm

structure RingsOn (alarm : Alarm) (t : DateTime) : Prop where
  hour : t.hour = alarm.hour.toNat
  minute : t.minute = alarm.minute.toNat
  full : t.second = 0 ∧ t.nanos = 0
  day : alarm.days ≠ Days.once → alarm.days.contains t.date.weekday = true

structure NextRinging (alarm : Alarm) (now next : DateTime) : Prop where
  inCalendar : next.InCalendar
  later : now < next
  rings : alarm.RingsOn next
  least : ∀ other : DateTime, other.InCalendar → now < other → alarm.RingsOn other → next = other ∨ next < other

theorem one_shot_iff (alarm : Alarm) : alarm.isOneShot = true ↔ alarm.days = Days.once := by
  obtain ⟨hour, minute, ⟨bits⟩, enabled⟩ := alarm
  simp [isOneShot, Days.isOnce, Days.once]

theorem fits_day_iff (alarm : Alarm) (day : Int) :
    alarm.FitsDay day ↔ (alarm.days ≠ Days.once → alarm.days.contains (Calendar.weekday day) = true) := by
  rw [FitsDay, one_shot_iff]
  by_cases once : alarm.days = Days.once
  · simp [once]
  · simp [once]

theorem rings_on_iff (alarm : Alarm) (time : LocalTime) (hasTime : alarm.HasTime) :
    alarm.RingsOn time.parts ↔ alarm.RingsAt time := by
  have day : time.parts.date.weekday = Calendar.weekday time.day := by
    rw [Date.weekday]
    exact congrArg Calendar.weekday (Calendar.date_of_spec time.day).2
  have hours := UInt8.le_iff_toNat_le.mp hasTime.1
  have minutes := UInt8.le_iff_toNat_le.mp hasTime.2
  have bound := time.since_midnight_lt
  have clock : time.sinceMidnight = Span.ofSeconds (alarm.hour.toNat * 3600 + alarm.minute.toNat * 60) ↔
      time.parts.hour = alarm.hour.toNat ∧ time.parts.minute = alarm.minute.toNat ∧
        time.parts.second = 0 ∧ time.parts.nanos = 0 := by
    simp only [LocalTime.parts, LocalTime.hour, LocalTime.minute, LocalTime.second, Span.seconds, Span.fraction,
      Span.ofSeconds, UInt8.toNat_ofNat] at hours minutes ⊢
    omega
  rw [RingsAt, clock, fits_day_iff, ← day]
  constructor
  · rintro ⟨hour, minute, full, day⟩
    exact ⟨⟨hour, minute, full⟩, day⟩
  · rintro ⟨⟨hour, minute, full⟩, day⟩
    exact ⟨hour, minute, full, day⟩

theorem RingsOn.whole {alarm : Alarm} {t : DateTime} (rings : alarm.RingsOn t) : t.Whole := by
  rw [DateTime.Whole, rings.full.2]
  decide

-- No alarm rings in a leap second, so a time at which one rings is known by its local time.
theorem RingsOn.parts_time {alarm : Alarm} {t : DateTime} (rings : alarm.RingsOn t) (inside : t.InCalendar) :
    t.time.parts = t :=
  t.parts_time inside.1.2.2 inside.2.1 rings.whole

theorem RingsOn.at_time {alarm : Alarm} {t : DateTime} (rings : alarm.RingsOn t) (inside : t.InCalendar)
    (hasTime : alarm.HasTime) : alarm.RingsAt t.time :=
  (alarm.rings_on_iff t.time hasTime).mp ((rings.parts_time inside).symm ▸ rings)

theorem later_in_calendar (now : DateTime) (time : LocalTime) (shown : now.InCalendar) (later : now.time < time)
    (last : time.day ≤ Calendar.lastDay) : time.InCalendar :=
  ⟨Int.le_trans (now.in_calendar_time shown).1 (LocalTime.day_le_of_lt now.time time later), last⟩

theorem FirstAfter.next_ringing {alarm : Alarm} {now : DateTime} {time : LocalTime} (first : alarm.FirstAfter now.time time)
    (hasTime : alarm.HasTime) (shown : now.InCalendar) : alarm.NextRinging now time.parts := by
  have inside := later_in_calendar now time shown first.later first.inCalendar
  refine ⟨time.parts_in_calendar_iff.mpr inside, (LocalTime.lt_parts_iff now time shown inside).mp first.later,
    (alarm.rings_on_iff time hasTime).mpr first.rings, fun other otherInside later rings => ?_⟩
  have parts := rings.parts_time otherInside
  have behind := (now.time_lt_iff other shown otherInside rings.whole).mpr later
  rcases Int.lt_or_eq_of_le (first.least other.time (rings.at_time otherInside hasTime) behind) with before | same
  · exact .inr (parts ▸ (LocalTime.parts_lt_iff time other.time inside (other.in_calendar_time otherInside)).mp before)
  · have equal : time = other.time := congrArg LocalTime.mk same
    exact .inl (equal ▸ parts)

theorem NextRinging.first_after {alarm : Alarm} {now : DateTime} {time : LocalTime}
    (next : alarm.NextRinging now time.parts) (hasTime : alarm.HasTime) (shown : now.InCalendar) :
    alarm.FirstAfter now.time time := by
  have inside := time.parts_in_calendar_iff.mp next.inCalendar
  refine ⟨(alarm.rings_on_iff time hasTime).mp next.rings, (LocalTime.lt_parts_iff now time shown inside).mpr next.later, inside.2,
    fun other rings later => ?_⟩
  by_cases last : other.day ≤ Calendar.lastDay
  · have otherInside := later_in_calendar now other shown later last
    rcases next.least other.parts (other.parts_in_calendar_iff.mpr otherInside)
        ((LocalTime.lt_parts_iff now other shown otherInside).mp later) ((alarm.rings_on_iff other hasTime).mpr rings) with same | before
    · rw [LocalTime.parts_injective time other same]
      exact Int.le_refl _
    · exact Int.le_of_lt ((LocalTime.parts_lt_iff time other inside otherInside).mpr before)
  · -- the calendar has ended before the other time
    apply Int.not_lt.mp
    intro before
    have days := LocalTime.day_le_of_lt other time before
    have ended := inside.2
    omega

theorem next_occurrence_is_first (alarm : Alarm) (now : DateTime) (hasTime : alarm.HasTime) (shown : now.InCalendar) :
    (∀ time, alarm.nextOccurrence? now.time = some time ↔ alarm.NextRinging now time.parts) ∧
      (alarm.nextOccurrence? now.time = none ↔
        ¬ ∃ later : DateTime, later.InCalendar ∧ now < later ∧ alarm.RingsOn later) := by
  have found := fun time => (alarm.next_occurrence_iff now.time time hasTime).trans
    ⟨fun first => first.next_ringing hasTime shown, fun next => next.first_after hasTime shown⟩
  refine ⟨found, ?_⟩
  cases answer : alarm.nextOccurrence? now.time with
  | none =>
      refine iff_of_true rfl ?_
      rintro ⟨later, inside, order, rings⟩
      have beyond := alarm.next_occurrence_none now.time later.time hasTime answer (rings.at_time inside hasTime)
        ((now.time_lt_iff later shown inside rings.whole).mpr order)
      have ends := (later.in_calendar_time inside).2
      omega
  | some time =>
      have next := (found time).mp answer
      exact iff_of_false nofun fun none => none ⟨time.parts, next.inCalendar, next.later, next.rings⟩

theorem leap_day_rings_next :
    let alarm : Alarm := ⟨0, 30, Days.ofList [.thursday], false⟩
    let now : DateTime := ⟨⟨2024, 2, 28⟩, 23, 59, 59, 1500000000⟩
    let next : DateTime := ⟨⟨2024, 2, 29⟩, 0, 30, 0, 0⟩
    alarm.HasTime ∧ now.InCalendar ∧ alarm.nextOccurrence? now.time = some next.time ∧ alarm.NextRinging now next := by
  intro alarm now next
  have hasTime : alarm.HasTime := by decide
  have shown : now.InCalendar := by decide
  have answer : alarm.nextOccurrence? now.time = some next.time := by decide +kernel
  have parts : next.time.parts = next := by decide +kernel
  exact ⟨hasTime, shown, answer, parts ▸ ((next_occurrence_is_first alarm now hasTime shown).1 next.time).mp answer⟩

end AlarmClock.Alarm
