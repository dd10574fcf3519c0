import AlarmClock.Schedule

set_option autoImplicit false

namespace AlarmClock

theorem LocalTime.day_le_of_lt (a b : LocalTime) (order : a < b) : a.day ≤ b.day := by
  change a.nanos < b.nanos at order
  simp only [day, dayLength]
  omega

theorem Weekday.forward_week (day : Weekday) (ahead : Nat) :
    ∃ near, 0 < near ∧ near < 8 ∧ day.forward near = day.forward ahead := by
  by_cases sameDay : ahead % 7 = 0
  · refine ⟨7, by decide, by decide, index_injective ?_⟩
    simp only [index_forward]
    omega
  · refine ⟨ahead % 7, by omega, by omega, index_injective ?_⟩
    simp only [index_forward]
    omega

namespace Alarm

def FitsDay (alarm : Alarm) (day : Int) : Prop :=
  alarm.isOneShot = true ∨ alarm.days.contains (Calendar.weekday day) = true

def RingsAt (alarm : Alarm) (time : LocalTime) : Prop :=
  time.sinceMidnight = Span.ofSeconds (alarm.hour.toNat * 3600 + alarm.minute.toNat * 60) ∧ alarm.FitsDay time.day

structure FirstAfter (alarm : Alarm) (now time : LocalTime) : Prop where
  rings : alarm.RingsAt time
  later : now < time
  inCalendar : time.day ≤ Calendar.lastDay
  least : ∀ other, alarm.RingsAt other → now < other → time ≤ other

theorem span_lt_day (alarm : Alarm) : ((Span.ofSeconds alarm.secondOfDay : Nat) : Int) < LocalTime.dayLength := by
  have bound := alarm.second_of_day_lt
  simp only [Span.ofSeconds, LocalTime.dayLength]
  omega

theorem day_on_day (alarm : Alarm) (day : Int) : (alarm.onDay day).day = day :=
  LocalTime.day_on_day day _ alarm.span_lt_day

theorem on_day_le (alarm : Alarm) (a b : Int) (order : a ≤ b) : alarm.onDay a ≤ alarm.onDay b := by
  change a * LocalTime.dayLength + _ ≤ b * LocalTime.dayLength + _
  simp only [LocalTime.dayLength]
  omega

theorem on_later_day (alarm : Alarm) (now : LocalTime) (day : Int) (later : now.day < day) : now < alarm.onDay day := by
  change now.nanos < day * LocalTime.dayLength + _
  simp only [LocalTime.day, LocalTime.dayLength] at later ⊢
  omega

theorem on_day_add_days (alarm : Alarm) (day : Int) (ahead : Nat) :
    (alarm.onDay day).addDays ahead = alarm.onDay (day + ahead) := by
  simp only [onDay, LocalTime.onDay, LocalTime.addDays, LocalTime.addNanos, LocalTime.dayLength, LocalTime.mk.injEq]
  omega

theorem rings_at_iff (alarm : Alarm) (time : LocalTime) (hasTime : alarm.HasTime) :
    alarm.RingsAt time ↔ time = alarm.onDay time.day ∧ alarm.FitsDay time.day := by
  have span : alarm.secondOfDay = alarm.hour.toNat * 3600 + alarm.minute.toNat * 60 := if_pos hasTime
  rw [RingsAt, ← span]
  constructor
  · rintro ⟨atTime, fits⟩
    refine ⟨?_, fits⟩
    rw [onDay, ← atTime, LocalTime.on_day_of_parts]
  · rintro ⟨onItsDay, fits⟩
    refine ⟨?_, fits⟩
    rw [onItsDay]
    exact LocalTime.since_midnight_on_day _ _ alarm.span_lt_day

theorem days_ahead_some (alarm : Alarm) (now : LocalTime) (ahead : Nat) (found : alarm.daysAhead? now = some ahead) :
    alarm.FitsDay (now.day + ahead) ∧ now < alarm.onDay (now.day + ahead) ∧
      ∀ fewer < ahead, ¬ (alarm.FitsDay (now.day + fewer) ∧ now < alarm.onDay (now.day + fewer)) := by
  unfold daysAhead? at found
  by_cases once : alarm.isOneShot = true
  · by_cases today : now < alarm.onDay now.day
    · have zero : 0 = ahead := by simpa [once, today] using found
      subst ahead
      exact ⟨.inl once, by simpa using today, fun fewer less => absurd less (Nat.not_lt_zero fewer)⟩
    · have one : 1 = ahead := by simpa [once, today] using found
      subst ahead
      refine ⟨.inl once, alarm.on_later_day now _ (by omega), fun fewer less => ?_⟩
      have zero : fewer = 0 := by omega
      simpa [zero] using fun _ => today
  · have search : (List.range 8).find? (fun ahead => alarm.days.contains (now.weekday.forward ahead) &&
        (0 < ahead || decide (now < alarm.onDay now.day))) = some ahead := by simpa [once] using found
    obtain ⟨chosen, _, passed⟩ := List.find?_range_eq_some.mp search
    simp only [LocalTime.weekday, ← Calendar.weekday_add, Bool.and_eq_true, Bool.or_eq_true, decide_eq_true_eq]
      at chosen passed
    refine ⟨.inr chosen.1, ?_, fun fewer less fits => ?_⟩
    · rcases chosen.2 with later | today
      · exact alarm.on_later_day now _ (by omega)
      · exact Int.lt_of_lt_of_le today (alarm.on_day_le _ _ (by omega))
    · rcases fits.1 with once' | contains
      · exact once once'
      · have unfit := passed fewer less
        rw [contains, Bool.true_and, Bool.not_eq_true', Bool.or_eq_false_iff, decide_eq_false_iff_not,
          decide_eq_false_iff_not] at unfit
        have zero : fewer = 0 := by omega
        exact unfit.2 (by simpa [zero] using fits.2)

theorem days_ahead_none (alarm : Alarm) (now : LocalTime) (none : alarm.daysAhead? now = none) (ahead : Nat) :
    ¬ alarm.FitsDay (now.day + ahead) := by
  unfold daysAhead? at none
  by_cases once : alarm.isOneShot = true
  · simp [once] at none
  · have search : (List.range 8).find? (fun ahead => alarm.days.contains (now.weekday.forward ahead) &&
        (0 < ahead || decide (now < alarm.onDay now.day))) = .none := by simpa [once] using none
    obtain ⟨near, positive, inRange, sameDay⟩ := now.weekday.forward_week ahead
    have unfit := List.find?_range_eq_none.mp search near inRange
    rw [sameDay, decide_eq_true positive, Bool.true_or, Bool.and_true, Bool.not_eq_true',
      LocalTime.weekday, ← Calendar.weekday_add] at unfit
    rintro (once' | contains)
    · exact once once'
    · simp [unfit] at contains

theorem days_until_ring (alarm : Alarm) (now time : LocalTime) (hasTime : alarm.HasTime)
    (rings : alarm.RingsAt time) (later : now < time) :
    ∃ ahead : Nat, time = alarm.onDay (now.day + ahead) ∧ alarm.FitsDay (now.day + ahead) := by
  have order := LocalTime.day_le_of_lt now time later
  obtain ⟨onItsDay, fits⟩ := (alarm.rings_at_iff time hasTime).mp rings
  have day : now.day + (time.day - now.day).toNat = time.day := by omega
  exact ⟨(time.day - now.day).toNat, by rw [day]; exact onItsDay, by rw [day]; exact fits⟩

theorem next_occurrence_first (alarm : Alarm) (now time : LocalTime) (hasTime : alarm.HasTime)
    (found : alarm.nextOccurrence? now = some time) : alarm.FirstAfter now time := by
  unfold nextOccurrence? at found
  obtain ⟨ahead, chosen, inside⟩ := Option.bind_eq_some_iff.mp found
  obtain ⟨fits, later, passed⟩ := alarm.days_ahead_some now ahead chosen
  rw [LocalTime.addDays?, on_day_add_days, day_on_day] at inside
  split at inside
  · rename_i inCalendar
    obtain rfl := Option.some.inj inside
    have rings : alarm.RingsAt (alarm.onDay (now.day + ahead)) :=
      (alarm.rings_at_iff _ hasTime).mpr (by rw [day_on_day]; exact ⟨rfl, fits⟩)
    refine ⟨rings, later, by rw [day_on_day]; exact inCalendar, fun other otherRings otherLater => ?_⟩
    obtain ⟨days, rfl, otherFits⟩ := alarm.days_until_ring now other hasTime otherRings otherLater
    have notFewer : ¬ days < ahead := fun fewer => passed days fewer ⟨otherFits, otherLater⟩
    exact alarm.on_day_le _ _ (by omega)
  · simp at inside

theorem next_occurrence_none (alarm : Alarm) (now other : LocalTime) (hasTime : alarm.HasTime)
    (none : alarm.nextOccurrence? now = none) (rings : alarm.RingsAt other) (later : now < other) :
    Calendar.lastDay < other.day := by
  obtain ⟨days, rfl, fits⟩ := alarm.days_until_ring now other hasTime rings later
  cases chosen : alarm.daysAhead? now with
  | none => exact absurd fits (alarm.days_ahead_none now chosen days)
  | some ahead =>
      obtain ⟨_, _, passed⟩ := alarm.days_ahead_some now ahead chosen
      have notFewer : ¬ days < ahead := fun fewer => passed days fewer ⟨fits, later⟩
      simp only [nextOccurrence?, chosen, Option.bind_some, LocalTime.addDays?, on_day_add_days, day_on_day] at none
      split at none
      · simp at none
      · rw [day_on_day]
        omega

theorem next_occurrence_iff (alarm : Alarm) (now time : LocalTime) (hasTime : alarm.HasTime) :
    alarm.nextOccurrence? now = some time ↔ alarm.FirstAfter now time := by
  refine ⟨alarm.next_occurrence_first now time hasTime, fun first => ?_⟩
  cases found : alarm.nextOccurrence? now with
  | none =>
      have beyond := alarm.next_occurrence_none now time hasTime found first.rings first.later
      exact absurd first.inCalendar (by omega)
  | some other =>
      have same := alarm.next_occurrence_first now other hasTime found
      have order : time.nanos = other.nanos :=
        Int.le_antisymm (first.least other same.rings same.later) (same.least time first.rings first.later)
      exact congrArg (some ∘ LocalTime.mk) order.symm

theorem next_occurrence_stable (alarm : Alarm) (earlier now : LocalTime) (hasTime : alarm.HasTime)
    (order : earlier ≤ now) (ahead : ∀ time, alarm.nextOccurrence? earlier = some time → now < time) :
    alarm.nextOccurrence? now = alarm.nextOccurrence? earlier := by
  cases before : alarm.nextOccurrence? earlier with
  | some time =>
      have first := alarm.next_occurrence_first earlier time hasTime before
      exact (alarm.next_occurrence_iff now time hasTime).mpr ⟨first.rings, ahead time before, first.inCalendar,
        fun other rings later => first.least other rings (Int.lt_of_le_of_lt order later)⟩
  | none =>
      cases after : alarm.nextOccurrence? now with
      | none => rfl
      | some time =>
          have first := alarm.next_occurrence_first now time hasTime after
          have beyond := alarm.next_occurrence_none earlier time hasTime before first.rings
            (Int.lt_of_le_of_lt order first.later)
          exact absurd first.inCalendar (by omega)

end Alarm
end AlarmClock
