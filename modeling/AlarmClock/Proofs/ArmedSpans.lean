import AlarmClock.Line
import AlarmClock.Proofs.Dates
import AlarmClock.Proofs.Punctual
import AlarmClock.Proofs.Rearm

set_option autoImplicit false

namespace AlarmClock

def Span.week : Nat := Span.ofSeconds 604800

theorem Calendar.weekday_week (day : Int) : weekday (day + 7) = weekday day := by
  apply Weekday.index_injective
  simp only [weekday, Weekday.index_from_sunday]
  omega

namespace Alarm

theorem fits_week_later (alarm : Alarm) (day : Int) : alarm.FitsDay (day + 7) ↔ alarm.FitsDay day := by
  rw [FitsDay, FitsDay, Calendar.weekday_week]

-- An alarm that comes on today's weekday only, and has passed, comes again in a week less the time since.
theorem next_occurrence_near (alarm : Alarm) (now time : LocalTime) (found : alarm.nextOccurrence? now = some time) :
    now < time ∧ time.nanos ≤ now.nanos + Span.week ∧ ∃ day, time = alarm.onDay day := by
  obtain ⟨ahead, chosen, inside⟩ := Option.bind_eq_some_iff.mp found
  obtain ⟨fits, later, passed⟩ := alarm.days_ahead_some now ahead chosen
  rw [LocalTime.addDays?, on_day_add_days] at inside
  obtain ⟨-, same⟩ := Option.ite_none_right_eq_some.mp inside
  obtain rfl := Option.some.inj same
  refine ⟨later, ?_, _, rfl⟩
  have ofDay := alarm.span_lt_day
  by_cases far : 7 ≤ ahead
  · have before : now.day + ahead = now.day + (ahead - 7 : Nat) + 7 := by omega
    have notLater : ¬ now < alarm.onDay (now.day + (ahead - 7 : Nat)) := fun order =>
      passed (ahead - 7) (by omega) ⟨(alarm.fits_week_later _).mp (before ▸ fits), order⟩
    change ¬ now.nanos < (now.day + (ahead - 7 : Nat)) * LocalTime.dayLength + _ at notLater
    change (now.day + ahead) * LocalTime.dayLength + _ ≤ now.nanos + Span.week
    simp only [LocalTime.dayLength, Span.week, Span.ofSeconds] at notLater ⊢
    omega
  · change (now.day + ahead) * LocalTime.dayLength + _ ≤ now.nanos + Span.week
    simp only [LocalTime.day, LocalTime.dayLength, Span.week, Span.ofSeconds] at ofDay ⊢
    omega

end Alarm

theorem find_next_near (alarms : List Alarm) (now : LocalTime) (next : NextAlarm) (found : findNext alarms now = some next) :
    now < next.due ∧ next.due.nanos ≤ now.nanos + Span.week ∧
      ∃ day seconds, seconds < 86400 ∧ next.due = LocalTime.onDay day (Span.ofSeconds seconds) := by
  obtain ⟨alarm, -, -, due⟩ := find_next_slot alarms now next found
  obtain ⟨later, near, day, onDay⟩ := alarm.next_occurrence_near now next.due due
  exact ⟨later, near, day, alarm.secondOfDay, alarm.second_of_day_lt, onDay⟩

namespace DateTime

-- In a leap second that ends a day, an alarm is due at the midnight after it.
def LeapsInto (now : DateTime) (due : LocalTime) : Prop :=
  now.secondOfDay = 86399 ∧ 1000000000 ≤ now.nanos ∧ due = LocalTime.onDay (Calendar.dayOf now.date + 1) 0

instance (now : DateTime) (due : LocalTime) : Decidable (now.LeapsInto due) := inferInstanceAs (Decidable (_ ∧ _))

-- The midnight is earlier in the day than any reading, so the leap second before it is not counted.
theorem since_leap (now : DateTime) (due : LocalTime) (leaps : now.LeapsInto due) :
    due.parts.since now = 1000000000 - now.nanos := by
  obtain ⟨last, -, rfl⟩ := leaps
  have midnight : (LocalTime.onDay (Calendar.dayOf now.date + 1) 0).sinceMidnight = 0 :=
    LocalTime.since_midnight_on_day _ 0 (by decide)
  have nanos : (LocalTime.onDay (Calendar.dayOf now.date + 1) 0).nanos =
      (Calendar.dayOf now.date + 1) * LocalTime.dayLength + (0 : Nat) := rfl
  rw [LocalTime.since_reading, midnight, last, nanos, if_neg fun leap => Nat.not_lt_zero _ leap.1]
  simp only [LocalTime.dayLength]
  omega

theorem since_ahead (now : DateTime) (shown : now.InCalendar) (day : Int) (seconds : Nat) (ofDay : seconds < 86400) :
    let due := LocalTime.onDay day (Span.ofSeconds seconds)
    now.time < due → due.nanos ≤ now.time.nanos + Span.week → ¬ now.LeapsInto due →
      0 < due.parts.since now ∧ due.parts.since now ≤ Span.week := by
  intro due later near ordinary
  have ofNow := now.second_of_day_lt shown.2.1
  have bounded := shown.2.2
  have short : ((Span.ofSeconds seconds : Nat) : Int) < LocalTime.dayLength := by
    simp only [Span.ofSeconds, LocalTime.dayLength]
    omega
  have atSecond : Span.seconds due.sinceMidnight = seconds := by
    rw [LocalTime.since_midnight_on_day day _ short]
    exact Nat.mul_div_cancel seconds (by decide)
  have nanos : due.nanos = day * LocalTime.dayLength + Span.ofSeconds seconds := rfl
  have reading : now.time.nanos = Calendar.dayOf now.date * LocalTime.dayLength +
      (now.secondOfDay * 1000000000 + min now.nanos 999999999 : Nat) := rfl
  change now.time.nanos < due.nanos at later
  simp only [LeapsInto, due, LocalTime.onDay, LocalTime.mk.injEq] at ordinary
  rw [LocalTime.since_reading, atSecond, nanos]
  rw [reading, nanos] at later near
  simp only [LocalTime.dayLength, Span.ofSeconds, Span.week] at later near ordinary ⊢
  split_ifs <;> omega

end DateTime

-- The alarm for which a call arms the timer, and the span that the timer is given, whether it takes it or not.
def Event.handed? (e : Event) (c : Controller) : Option (NextAlarm × Nat) :=
  match e.call.course e.around c with
  | .plans prepared => (prepared.soonest e.around).map fun next => (next, e.around.clock.untilTime next.due)
  | .keeps _ | .rings _ _ => none

theorem TimerThread.look_arms (timer : TimerThread) (span instant : Nat) (rest : List TimerCommand)
    (waits : timer.commands = .arm span :: rest) (room : instant + span < clockEnd) :
    timer.look instant = (⟨rest, some (instant + span), true⟩, false) := by
  simp only [look, waits, if_pos room]

theorem TimeLeft.parts_bounded (total : Nat) :
    (ofSeconds total).hours < 24 ∧ (ofSeconds total).minutes < 60 ∧ (ofSeconds total).seconds < 60 := by
  simp only [ofSeconds]
  omega

namespace Controller

theorem handed_iff (c : Controller) (e : Event) (next : NextAlarm) (span : Nat) :
    e.handed? c = some (next, span) ↔
      ∃ prepared, e.call.course e.around c = .plans prepared ∧ prepared.soonest e.around = some next ∧
        span = e.around.clock.untilTime next.due := by
  unfold Event.handed?
  cases e.call.course e.around c with
  | keeps after => simp
  | rings other disarms => simp
  | plans prepared => simp [eq_comm]

theorem taken_span (c : Controller) (e : Event) (span : Nat) (taken : .arm span ∈ (e.outcome c).commands) :
    ∃ next, e.handed? c = some (next, span) ∧ (c.after e).next = some next := by
  obtain ⟨controller, commands, -⟩ := c.after_course e
  simp only [handed_iff]
  rw [commands] at taken
  rw [controller]
  cases course : e.call.course e.around c with
  | keeps after => simp [course, Course.commands] at taken
  | rings other disarms => cases disarms <;> simp [course, Course.commands] at taken
  | plans prepared =>
      simp only [course, Course.commands, Course.controller, planCommands, planned] at taken ⊢
      cases soonest : prepared.soonest e.around with
      | none => simp [soonest] at taken
      | some next =>
          simp only [soonest] at taken ⊢
          by_cases fails : e.around.armFailure.isSome = true
          · simp [fails] at taken
          · rw [if_neg fails] at taken ⊢
            exact ⟨next, ⟨prepared, rfl, soonest, TimerCommand.arm.inj (List.mem_singleton.mp taken)⟩, rfl⟩

theorem refused_span (c : Controller) (e : Event) (slot : Nat) (failure : Failure)
    (refused : Effect.log (.armFailed slot failure) ∈ (e.outcome c).effects) :
    ∃ next span, e.handed? c = some (next, span) := by
  have fails := c.refusal_course e slot failure refused
  obtain ⟨plans, -⟩ := c.fails_prepared e failure fails
  rw [plans] at fails
  obtain ⟨next, soonest⟩ := Option.isSome_iff_exists.mp (((c.after e).schedule_fails_iff e.around failure).mp fails).2
  exact ⟨next, _, (c.handed_iff e next _).mpr ⟨c.after e, plans, soonest, rfl⟩⟩

theorem handed_span (c : Controller) (e : Event) (now : DateTime) (shown : now.InCalendar)
    (plain : e.around.clock = Clock.plain now) (next : NextAlarm) (span : Nat) (handed : e.handed? c = some (next, span)) :
    span ≤ Span.week ∧ (0 < span ∧ (span : Int) = next.due.parts.since now ↔ ¬ now.LeapsInto next.due) ∧
      (now.LeapsInto next.due → span = 0 ∧ next.due.parts.since now = 1000000000 - now.nanos) := by
  obtain ⟨prepared, -, soonest, left⟩ := (c.handed_iff e next span).mp handed
  obtain ⟨later, near, day, seconds, ofDay, due⟩ := find_next_near _ _ next soonest
  rw [plain] at later near left
  change span = (next.due.parts.since now).toNat at left
  by_cases leaps : now.LeapsInto next.due
  · have negative := now.since_leap next.due leaps
    have leap := leaps.2.1
    obtain rfl : span = 0 := by omega
    exact ⟨Nat.zero_le _, iff_of_false (fun exact => Nat.lt_irrefl 0 exact.1) (not_not_intro leaps), fun _ => ⟨rfl, negative⟩⟩
  · have ahead := now.since_ahead shown day seconds ofDay
    rw [← due] at ahead
    obtain ⟨positive, short⟩ := ahead later near leaps
    exact ⟨by omega, iff_of_true ⟨by omega, by omega⟩ leaps, fun leaps' => absurd leaps' leaps⟩

-- The exact condition for a span to be the time that is left until the alarm, and more than none.
theorem armed_span_is_time_left_iff (events : List Event) (e : Event) (now : DateTime) (shown : now.InCalendar)
    (plain : e.around.clock = Clock.plain now) :
    let c := initial.run events
    let after := initial.run (events ++ [e])
    (∀ next span, e.handed? c = some (next, span) →
        span ≤ Span.week ∧ (0 < span ∧ (span : Int) = next.due.parts.since now ↔ ¬ now.LeapsInto next.due) ∧
          (now.LeapsInto next.due → span = 0 ∧ next.due.parts.since now = 1000000000 - now.nanos) ∧
          ∀ (timer : TimerThread) (instant : Nat) (rest : List TimerCommand), timer.commands = .arm span :: rest →
            instant + Span.week < TimerThread.clockEnd →
              timer.look instant = (⟨rest, some (instant + span), true⟩, false)) ∧
      (∀ slot failure, .log (.armFailed slot failure) ∈ (e.outcome c).effects →
        ∃ next span, e.handed? c = some (next, span)) ∧
      ∀ span, .arm span ∈ (e.outcome c).commands →
        ∃ next, e.handed? c = some (next, span) ∧ after.next = some next ∧
          after.secondsLeft? e.around.clock = some (Span.seconds span) ∧
            let left := TimeLeft.ofSeconds (Span.seconds span)
            left.toSeconds = Span.seconds span ∧ left.hours < 24 ∧ left.minutes < 60 ∧ left.seconds < 60 := by
  intro c after
  refine ⟨fun next span handed => ?_, c.refused_span e, fun span taken => ?_⟩
  · obtain ⟨short, exact, leaps⟩ := c.handed_span e now shown plain next span handed
    refine ⟨short, exact, leaps, fun timer instant rest waits room => ?_⟩
    exact timer.look_arms span instant rest waits (Nat.lt_of_le_of_lt (Nat.add_le_add_left short instant) room)
  · obtain ⟨next, handed, planned⟩ := c.taken_span e span taken
    obtain ⟨-, -, -, left⟩ := (c.handed_iff e next span).mp handed
    have scheduled : after.next = some next := by
      change (initial.run (events ++ [e])).next = some next
      rw [run_append]
      exact planned
    refine ⟨next, handed, scheduled, ?_, TimeLeft.to_seconds_of_seconds _, TimeLeft.parts_bounded _⟩
    rw [secondsLeft?, scheduled, left]
    rfl

def onTuesdays : List Event :=
  [⟨atDawn 6 0 0, .edit 0 (.setDay .tuesday true)⟩, ⟨atDawn 6 0 0, .edit 0 (.setEnabled true)⟩]

theorem tuesday_alarm_is_a_week_ahead :
    let c := initial.run onTuesdays
    let e : Event := ⟨atDawn 7 0 0, .schedule⟩
    let now : DateTime := ⟨⟨2024, 1, 2⟩, 7, 0, 0, 0⟩
    now.InCalendar ∧ e.around.clock = Clock.plain now ∧ .arm Span.week ∈ (e.outcome c).commands ∧
      (initial.run (onTuesdays ++ [e])).secondsLeft? e.around.clock = some 604800 ∧
      (TimeLeft.ofSeconds 604800).toSeconds = 604800 ∧
      ∃ next, e.handed? c = some (next, Span.week) ∧ (Span.week : Int) = next.due.parts.since now := by
  intro c e now
  have shown : now.InCalendar := by decide
  have plain : e.around.clock = Clock.plain now := rfl
  have taken : .arm Span.week ∈ (e.outcome c).commands := by decide +kernel
  obtain ⟨spans, -, taking⟩ := armed_span_is_time_left_iff onTuesdays e now shown plain
  obtain ⟨next, handed, -, seconds, whole, -⟩ := taking Span.week taken
  have ordinary : ¬ now.LeapsInto next.due := fun leaps => absurd leaps.1 (by decide)
  exact ⟨shown, plain, taken, seconds, whole, next, handed, ((spans next Span.week handed).2.1.mpr ordinary).2⟩

def leapSecond : DateTime := ⟨⟨2024, 1, 2⟩, 23, 59, 59, 1500000000⟩

-- Slot 0 is switched on for midnight.
def atMidnight : List Event :=
  [⟨atDawn 6 0 0, .edit 0 (.setTime 0 0)⟩, ⟨atDawn 6 0 0, .edit 0 (.setEnabled true)⟩]

-- The second half of the leap second is still to come, and the timer is armed for no time at all.
theorem leap_second_arms_for_nothing :
    let c := initial.run atMidnight
    let e : Event := ⟨⟨Clock.plain leapSecond, none, .ok none, none⟩, .schedule⟩
    let midnight := LocalTime.ofParts ⟨2024, 1, 3⟩ 0 0 0 0
    leapSecond.InCalendar ∧ e.handed? c = some (⟨0, midnight⟩, 0) ∧ .arm 0 ∈ (e.outcome c).commands ∧
      leapSecond.LeapsInto midnight ∧ midnight.parts.since leapSecond = -500000000 := by
  intro c e midnight
  exact ⟨by decide, by decide +kernel, by decide +kernel, by decide +kernel, by decide +kernel⟩

end Controller
end AlarmClock
