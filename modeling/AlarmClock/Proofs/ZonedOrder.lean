import AlarmClock.Proofs.ZonedAlert

set_option autoImplicit false

namespace AlarmClock

namespace Zone

variable (zone : Zone) (a b : LocalTime) (instant : Moment)

theorem until_order_iff :
    (Clock.inZone zone instant).untilTime a ≤ (Clock.inZone zone instant).untilTime b ↔
      ∀ moment, zone.resolve? a = some moment → instant.nanos < moment.nanos →
        ∃ other, zone.resolve? b = some other ∧ moment.nanos ≤ other.nanos := by
  rw [until_le_iff]
  refine forall_congr' fun moment => imp_congr_right fun _ => ?_
  cases resolved : zone.resolve? b with
  | none =>
      rw [zone.until_unresolved b instant resolved]
      simp only [reduceCtorEq, false_and, exists_false, imp_false, Int.not_lt]
      omega
  | some other =>
      rw [zone.until_resolved b instant other resolved]
      simp only [Option.some.injEq, exists_eq_left']
      omega

theorem ahead_of_instant (orderly : zone.Orderly) (moment : Moment) (resolved : zone.resolve? a = some moment)
    (ahead : zone.localTime instant < a) : instant.nanos < moment.nanos := by
  apply Int.not_le.mp
  intro passed
  exact absurd (zone.resolve_stays orderly a moment instant resolved passed) (Int.not_le.mpr ahead)

theorem until_order_stands_iff (orderly : zone.Orderly) (inland : a.Inland) (otherInland : b.Inland) (whole : a.Whole)
    (otherWhole : b.Whole) (ahead : zone.localTime instant < a) (order : a ≤ b) :
    (Clock.inZone zone instant).untilTime a ≤ (Clock.inZone zone instant).untilTime b ↔
      zone.Lost a ∨ ¬ zone.Lost b ∧ zone.standsFor a ≤ zone.standsFor b := by
  rw [until_order_iff, ← zone.resolve_none_iff orderly a inland, ← zone.resolve_none_iff orderly b otherInland]
  cases resolved : zone.resolve? a with
  | none => exact iff_of_true nofun (.inl rfl)
  | some moment =>
      have future := zone.ahead_of_instant a instant orderly moment resolved ahead
      cases otherResolved : zone.resolve? b with
      | none => simp [future]
      | some other =>
          have listed := resolved
          have otherListed := otherResolved
          rw [zone.resolve_stands orderly a inland] at listed
          rw [zone.resolve_stands orderly b otherInland] at otherListed
          have stands := zone.stands_order_iff orderly a b moment other whole otherWhole order listed otherListed
          simp [future, stands]

end Zone

namespace Controller

def awaited (around : Surroundings) (c : Controller) : List LocalTime :=
  c.alarms.slots.toList.filterMap fun alarm => if alarm.enabled then alarm.nextOccurrence? around.clock.now else none

theorem mem_awaited (around : Surroundings) (c : Controller) (time : LocalTime) :
    time ∈ c.awaited around ↔ ∃ alarm ∈ c.alarms.slots.toList, alarm.enabled = true ∧
      alarm.nextOccurrence? around.clock.now = some time := by
  unfold awaited
  rw [List.mem_filterMap]
  refine exists_congr fun alarm => and_congr_right fun _ => ?_
  by_cases on : alarm.enabled = true
  · rw [if_pos on, and_iff_right on]
  · simp [on]

theorem awaited_ahead (around : Surroundings) (c : Controller) (timed : c.alarms.Timed) (time : LocalTime)
    (waits : time ∈ c.awaited around) : around.clock.now < time ∧ time.Whole := by
  obtain ⟨alarm, present, -, rings⟩ := (c.mem_awaited around time).mp waits
  obtain ⟨⟨onItsTime, -⟩, later, -, -⟩ := alarm.next_occurrence_first around.clock.now time (timed alarm present) rings
  refine ⟨later, ?_⟩
  simp only [LocalTime.sinceMidnight, LocalTime.dayLength, Span.ofSeconds] at onItsTime
  unfold LocalTime.Whole
  omega

theorem soonest_awaited (around : Surroundings) (c : Controller) (found : NextAlarm)
    (soonest : c.soonest around = some found) :
    found.due ∈ c.awaited around ∧ ∀ time ∈ c.awaited around, found.due ≤ time := by
  constructor
  · obtain ⟨alarm, access, on, rings⟩ := find_next_slot _ around.clock.now found soonest
    exact (c.mem_awaited around found.due).mpr ⟨alarm, List.mem_of_getElem? access, on, rings⟩
  · intro time waits
    obtain ⟨alarm, present, on, rings⟩ := (c.mem_awaited around time).mp waits
    exact soonest_le around.clock.now 0 _ found (find_next_from_soonest _ 0 _ found soonest) alarm present time on rings

theorem least_span_iff (around : Surroundings) (c : Controller) (found : NextAlarm) (span : Nat)
    (soonest : c.soonest around = some found) (armed : (c.schedule around).commands = [.arm span]) :
    ((c.awaited around).map around.clock.untilTime).min? = some span ↔
      ∀ time ∈ c.awaited around, around.clock.untilTime found.due ≤ around.clock.untilTime time := by
  rw [c.armed_span around found span soonest armed, List.min?_eq_some_iff]
  simp only [List.mem_map, forall_exists_index, and_imp, forall_apply_eq_imp_iff₂]
  exact and_iff_right ⟨found.due, (c.soonest_awaited around found soonest).1, rfl⟩

theorem armed_span_is_least_iff (zone : Zone) (instant : Moment) (around : Surroundings)
    (clock : around.clock = Clock.inZone zone instant) (c : Controller) (timed : c.alarms.Timed) (found : NextAlarm)
    (span : Nat) (soonest : c.soonest around = some found) (armed : (c.schedule around).commands = [.arm span]) :
    (((c.awaited around).map around.clock.untilTime).min? = some span ↔
        ∀ time ∈ c.awaited around, ∀ moment, zone.resolve? found.due = some moment → instant.nanos < moment.nanos →
          ∃ other, zone.resolve? time = some other ∧ moment.nanos ≤ other.nanos) ∧
      (zone.Orderly → (∀ time ∈ c.awaited around, time.Inland) →
        (((c.awaited around).map around.clock.untilTime).min? = some span ↔
          zone.Lost found.due ∨
            ∀ time ∈ c.awaited around, ¬ zone.Lost time ∧ zone.standsFor found.due ≤ zone.standsFor time) ∧
        (((c.awaited around).map around.clock.untilTime).min? = some span →
          ∀ time ∈ c.awaited around, ∀ moment, zone.resolve? time = some moment →
            instant.nanos + span ≤ moment.nanos)) := by
  have least := c.least_span_iff around found span soonest armed
  obtain ⟨present, first⟩ := c.soonest_awaited around found soonest
  rw [least, clock]
  refine ⟨?_, fun orderly inland => ⟨?_, fun spans time waits moment resolved => ?_⟩⟩
  · exact forall₂_congr fun time _ => zone.until_order_iff found.due time instant
  · have ahead := c.awaited_ahead around timed
    rw [clock] at ahead
    have each : ∀ time ∈ c.awaited around, _ := fun time waits =>
      zone.until_order_stands_iff found.due time instant orderly (inland found.due present) (inland time waits)
        (ahead found.due present).2 (ahead time waits).2 (ahead found.due present).1 (first time waits)
    rw [forall₂_congr each]
    by_cases lost : zone.Lost found.due
    · simp [lost]
    · simp [lost]
  · have ahead := (c.awaited_ahead around timed time waits).1
    rw [clock] at ahead
    have future := zone.ahead_of_instant time instant orderly moment resolved ahead
    have armedFor := c.armed_span around found span soonest armed
    rw [clock] at armedFor
    have short := spans time waits
    rw [← armedFor, zone.until_resolved time instant moment resolved] at short
    omega

def westernZone : Zone := .seasonal (-18000) (-14400) ⟨3, 2, 0, 7200⟩ ⟨11, 1, 0, 7200⟩

def hourBefore : Moment := utcMoment ⟨2024, 3, 10⟩ 6 0

def halfPastTwoAnd (hour minute : UInt8) : List Event :=
  let around := inZone westernZone hourBefore
  [⟨around, .edit 0 (.setTime 2 30)⟩, ⟨around, .edit 0 (.setEnabled true)⟩, ⟨around, .edit 1 (.setTime hour minute)⟩,
    ⟨around, .edit 1 (.setEnabled true)⟩]

theorem skipped_alarm_is_soonest :
    let c := initial.run (halfPastTwoAnd 3 30)
    let around := inZone westernZone hourBefore
    let due := LocalTime.ofParts ⟨2024, 3, 10⟩ 2 30 0 0
    let other := LocalTime.ofParts ⟨2024, 3, 10⟩ 3 30 0 0
    c.alarms.Timed ∧ c.soonest around = some ⟨0, due⟩ ∧ westernZone.Skips due ∧
      (c.schedule around).commands = [.arm (Span.ofSeconds 5400)] ∧ westernZone.Orderly ∧
      c.awaited around = [due, other] ∧ (∀ time ∈ c.awaited around, time.Inland) ∧
      ((c.awaited around).map around.clock.untilTime).min? = some (Span.ofSeconds 5400) := by
  intro c around due other
  have timed : c.alarms.Timed := initial.run_timed (halfPastTwoAnd 3 30) AlarmSet.timed_empty
  have soonest : c.soonest around = some ⟨0, due⟩ := by decide +kernel
  have armed : (c.schedule around).commands = [.arm (Span.ofSeconds 5400)] := by decide +kernel
  have orderly : westernZone.Orderly :=
    Zone.orderly_of_months (-18000) (-14400) ⟨3, 2, 0, 7200⟩ ⟨11, 1, 0, 7200⟩ (by decide)
      ⟨⟨by decide, by decide, by decide⟩, ⟨by decide, by decide, by decide⟩⟩ (by decide) (by decide)
  have awaits : c.awaited around = [due, other] := by decide +kernel
  have inland : ∀ time ∈ c.awaited around, time.Inland := by
    rw [awaits]
    decide +kernel
  obtain ⟨least, -⟩ :=
    (armed_span_is_least_iff westernZone hourBefore around rfl c timed ⟨0, due⟩ _ soonest armed).2 orderly inland
  refine ⟨timed, soonest, by decide +kernel, armed, orderly, awaits, inland, least.mpr (.inr ?_)⟩
  rw [awaits]
  decide +kernel

theorem shown_alarm_is_passed_over :
    let c := initial.run (halfPastTwoAnd 3 0)
    let around := inZone westernZone hourBefore
    let due := LocalTime.ofParts ⟨2024, 3, 10⟩ 2 30 0 0
    let other := LocalTime.ofParts ⟨2024, 3, 10⟩ 3 0 0 0
    c.soonest around = some ⟨0, due⟩ ∧ (c.schedule around).commands = [.arm (Span.ofSeconds 5400)] ∧
      c.awaited around = [due, other] ∧ around.clock.untilTime other = Span.ofSeconds 3600 ∧
      ((c.awaited around).map around.clock.untilTime).min? ≠ some (Span.ofSeconds 5400) := by
  intro c around due other
  exact ⟨by decide +kernel, by decide +kernel, by decide +kernel, by decide +kernel, by decide +kernel⟩

end Controller
end AlarmClock
