import AlarmClock.Proofs.Dates
import AlarmClock.Proofs.Punctual

set_option autoImplicit false

namespace AlarmClock

namespace Alarm

theorem rings_apart (alarm : Alarm) (a b : LocalTime) (first : alarm.RingsAt a) (second : alarm.RingsAt b)
    (later : a < b) : a.addDays 1 ≤ b := by
  have sameTime : a.sinceMidnight = b.sinceMidnight := first.1.trans second.1.symm
  change a.nanos < b.nanos at later
  change a.nanos + ((1 : Nat) : Int) * LocalTime.dayLength ≤ b.nanos
  simp only [LocalTime.sinceMidnight, LocalTime.dayLength] at sameTime ⊢
  omega

variable {alarm : Alarm} {now time due : LocalTime}

theorem first_a_day_later_iff (first : alarm.FirstAfter now time) :
    due.addDays 1 ≤ time ↔ ∀ other, alarm.RingsAt other → now < other → due.addDays 1 ≤ other := by
  constructor
  · intro aDayLater other rings later
    exact Int.le_trans aDayLater (first.least other rings later)
  · intro none
    exact none time first.rings first.later

theorem first_after_ring_iff (first : alarm.FirstAfter now time) (rang : alarm.RingsAt due) :
    due.addDays 1 ≤ time ↔ due ≤ now := by
  constructor
  · intro aDayLater
    apply Int.not_lt.mp
    intro ahead
    have least : time.nanos ≤ due.nanos := first.least due rang ahead
    change due.nanos + ((1 : Nat) : Int) * LocalTime.dayLength ≤ time.nanos at aDayLater
    simp only [LocalTime.dayLength] at aDayLater
    omega
  · intro passed
    exact alarm.rings_apart due time rang first.rings (Int.lt_of_le_of_lt passed first.later)

theorem first_before_ring (first : alarm.FirstAfter now time) (rang : alarm.RingsAt due) (ahead : now < due)
    (soon : due.nanos - now.nanos < LocalTime.dayLength) : time = due := by
  have least : time.nanos ≤ due.nanos := first.least due rang ahead
  have later : now.nanos < time.nanos := first.later
  have sameTime : time.sinceMidnight = due.sinceMidnight := first.rings.1.trans rang.1.symm
  simp only [LocalTime.sinceMidnight, LocalTime.dayLength] at sameTime soon
  have same : time.nanos = due.nanos := by omega
  exact congrArg LocalTime.mk same

end Alarm

-- The clock never goes back, and the time left is what it still has to go.
def Steady (events : List Event) : Prop :=
  (∀ e ∈ events, ∃ reading : DateTime, reading.nanos < 2000000000 ∧ e.around.clock = Clock.plain reading) ∧
    (events.map fun e => e.around.clock.now).Pairwise (· ≤ ·)

namespace Controller

def Keeps (c : Controller) (slot : Nat) (alarm : Alarm) : List Event → Prop
  | [] => c.alarms.get? slot = some alarm
  | e :: later => c.alarms.get? slot = some alarm ∧ (c.after e).Keeps slot alarm later

instance decidableKeeps (slot : Nat) (alarm : Alarm) :
    (events : List Event) → (c : Controller) → Decidable (c.Keeps slot alarm events)
  | [], c => inferInstanceAs (Decidable (c.alarms.get? slot = some alarm))
  | e :: later, c => @instDecidableAnd _ _ (inferInstanceAs (Decidable (c.alarms.get? slot = some alarm)))
      (decidableKeeps slot alarm later (c.after e))

theorem keeps_now (c : Controller) (slot : Nat) (alarm : Alarm) (events : List Event) (kept : c.Keeps slot alarm events) :
    c.alarms.get? slot = some alarm := by
  cases events with
  | nil => exact kept
  | cons e later => exact kept.1

theorem keeps_later (c : Controller) (slot : Nat) (alarm : Alarm) (earlier later : List Event)
    (kept : c.Keeps slot alarm (earlier ++ later)) : (c.run earlier).Keeps slot alarm later := by
  induction earlier generalizing c with
  | nil => exact kept
  | cons e rest ih => exact ih (c.after e) kept.2

theorem plan_source (c : Controller) (events : List Event) (plan : Plan) (made : plan ∈ c.plans events) :
    ∃ earlier e later, events = earlier ++ e :: later ∧
      plan = ⟨((c.run earlier).after e).alarms.slots, e.around.clock.now⟩ := by
  induction events generalizing c with
  | nil => cases made
  | cons e later ih =>
      rcases List.mem_append.mp made with here | there
      · refine ⟨[], e, later, rfl, ?_⟩
        unfold Event.plan? at here
        by_cases schedules : e.Schedules c
        · rw [if_pos schedules] at here
          exact List.mem_singleton.mp here
        · rw [if_neg schedules] at here
          cases here
      · obtain ⟨earlier, other, rest, split, source⟩ := ih (c.after e) there
        exact ⟨e :: earlier, other, rest, by rw [split]; rfl, source⟩

theorem kept_slot_first (c : Controller) (slot : Nat) (alarm : Alarm) (events : List Event) (timed : c.alarms.Timed)
    (kept : c.Keeps slot alarm events) (plan : Plan) (made : plan ∈ c.plans events) (again : NextAlarm)
    (answer : plan.answer = some again) (same : again.slot = slot) :
    alarm.FirstAfter plan.now again.due ∧ ∃ e ∈ events, plan.now = e.around.clock.now := by
  obtain ⟨earlier, e, later, rfl, rfl⟩ := c.plan_source events plan made
  have record := (c.keeps_later slot alarm earlier (e :: later) kept).2
  have current := ((c.run earlier).after e).keeps_now slot alarm later record
  obtain ⟨other, access, -, due⟩ := find_next_slot _ e.around.clock.now again answer
  rw [same, Vector.getElem?_toList] at access
  obtain rfl := Option.some.inj (access.symm.trans current)
  have times := (c.run earlier).after_timed e (c.run_timed earlier timed)
  refine ⟨?_, e, List.mem_append_right earlier List.mem_cons_self, rfl⟩
  exact other.next_occurrence_first e.around.clock.now again.due
    (times other (Vector.mem_toList_iff.mpr (Vector.mem_of_getElem? current))) due

theorem wake_unsets_next (c : Controller) (e : Event) (slot : Nat) (woken : slot ∈ (e.outcome c).wakes) :
    (c.after e).next = none := by
  obtain ⟨controller, -, wakes⟩ := c.after_course e
  rw [wakes] at woken
  rw [controller]
  cases course : e.call.course e.around c with
  | keeps after => simp [course, Course.wakes] at woken
  | plans prepared => simp [course, Course.wakes] at woken
  | rings next disarms => rfl

theorem alert_is_near (c : Controller) (alert : Event) (next : NextAlarm) (scheduled : c.next = some next)
    (rings : next.slot ∈ (alert.outcome c).wakes) (cause : alert.call = .timerExpired ∨ alert.call = .resync)
    (steady : ∃ reading : DateTime, reading.nanos < 2000000000 ∧ alert.around.clock = Clock.plain reading) :
    next.due.nanos - alert.around.clock.now.nanos ≤ 2000000000 ∧
      (alert.call = .resync → next.due ≤ alert.around.clock.now) := by
  obtain ⟨other, again, -, may⟩ := c.wake_cause alert next.slot rings
  obtain rfl := Option.some.inj (scheduled.symm.trans again)
  rcases may with ⟨expiry, near⟩ | ⟨resync, passed⟩ | triggered
  · refine ⟨?_, fun resync => by simp [expiry] at resync⟩
    obtain ⟨reading, bounded, plain⟩ := steady
    have apart := next.due.since_near reading bounded
    rw [plain] at near ⊢
    simp only [Clock.plain, Span.ofSeconds] at near ⊢
    omega
  · refine ⟨?_, fun _ => passed⟩
    change next.due.nanos ≤ alert.around.clock.now.nanos at passed
    omega
  · rw [triggered] at cause
    exact absurd cause (by simp)

-- The exact condition for a slot that has rung to be scheduled a day later at least. `plan` is the schedule that the
-- later `next` comes from.
theorem rung_alarm_advances_iff (before later : List Event) (alert : Event) (next again : NextAlarm) (alarm : Alarm)
    (scheduled : (initial.run before).next = some next)
    (rings : next.slot ∈ (alert.outcome (initial.run before)).wakes)
    (cause : alert.call = .timerExpired ∨ alert.call = .resync) (steady : Steady (before ++ alert :: later))
    (kept : ((initial.run before).after alert).Keeps next.slot alarm later)
    (found : (((initial.run before).after alert).run later).next = some again) (same : again.slot = next.slot) :
    ∃ plan, (((initial.run before).after alert).plans later).getLast? = some plan ∧ plan.answer = some again ∧
      (next.due.addDays 1 ≤ again.due ↔
        ∀ time, alarm.RingsAt time → plan.now < time → next.due.addDays 1 ≤ time) ∧
      (alarm.RingsAt next.due →
        (next.due.addDays 1 ≤ again.due ↔ next.due ≤ plan.now) ∧
        (next.due ≤ alert.around.clock.now → next.due.addDays 1 ≤ again.due) ∧
        (plan.now < next.due → again = next ∧ alert.call = .timerExpired)) := by
  have unset := (initial.run before).wake_unsets_next alert next.slot rings
  obtain ⟨plan, last, answer⟩ := next_since_unset _ unset later again found
  have timed := (initial.run before).after_timed alert (initial.run_timed before AlarmSet.timed_empty)
  obtain ⟨first, e, present, clock⟩ := kept_slot_first _ next.slot alarm later timed kept plan
    (List.mem_of_getLast? last) again answer same
  obtain ⟨near, overdue⟩ := (initial.run before).alert_is_near alert next scheduled rings cause
    (steady.1 alert (List.mem_append_right before List.mem_cons_self))
  have forward : alert.around.clock.now.nanos ≤ plan.now.nanos := by
    have order := steady.2
    rw [List.map_append, List.map_cons, List.pairwise_append, List.pairwise_cons] at order
    rw [clock]
    exact order.2.1.1 _ (List.mem_map_of_mem present)
  refine ⟨plan, last, answer, Alarm.first_a_day_later_iff first, fun rang => ⟨Alarm.first_after_ring_iff first rang, ?_, ?_⟩⟩
  · intro passed
    exact (Alarm.first_after_ring_iff first rang).mpr (Int.le_trans passed forward)
  · intro ahead
    have soon : next.due.nanos - plan.now.nanos < LocalTime.dayLength := by
      simp only [LocalTime.dayLength]
      omega
    refine ⟨?_, cause.resolve_right fun resync => ?_⟩
    · rw [NextAlarm.mk.injEq]
      exact ⟨same, Alarm.first_before_ring first rang ahead soon⟩
    · exact absurd (Int.le_trans (overdue resync) forward) (Int.not_le.mpr ahead)

def dailyAtSeven : List Event :=
  [⟨atDawn 6 0 0, .edit 0 (.setDays Days.daily)⟩, ⟨atDawn 6 0 0, .edit 0 (.setEnabled true)⟩,
    ⟨atDawn 6 0 0, .schedule⟩]

def secondEarly : Event := ⟨atDawn 6 59 59, .timerExpired⟩

theorem at_dawn_plain (hour minute second : Nat) :
    ∃ reading : DateTime, reading.nanos < 2000000000 ∧ (atDawn hour minute second).clock = Clock.plain reading :=
  ⟨⟨⟨2024, 1, 2⟩, hour, minute, second, 0⟩, Nat.succ_pos _, rfl⟩

def sevenDaily : Alarm := ⟨7, 0, Days.daily, true⟩

theorem stop_at_seven_advances :
    let seven := LocalTime.ofParts ⟨2024, 1, 2⟩ 7 0 0 0
    let later : List Event := [⟨atDawn 7 0 0, .stop⟩]
    (initial.run dailyAtSeven).next = some ⟨0, seven⟩ ∧
      0 ∈ (secondEarly.outcome (initial.run dailyAtSeven)).wakes ∧ Steady (dailyAtSeven ++ secondEarly :: later) ∧
      ((initial.run dailyAtSeven).after secondEarly).Keeps 0 sevenDaily later ∧
      ∃ again, (((initial.run dailyAtSeven).after secondEarly).run later).next = some again ∧ again.slot = 0 ∧
        seven.addDays 1 ≤ again.due := by
  intro seven later
  have scheduled : (initial.run dailyAtSeven).next = some ⟨0, seven⟩ := by decide +kernel
  have rings : 0 ∈ (secondEarly.outcome (initial.run dailyAtSeven)).wakes := by decide +kernel
  have steady : Steady (dailyAtSeven ++ secondEarly :: later) := by
    refine ⟨?_, by decide⟩
    simp [dailyAtSeven, secondEarly, later, at_dawn_plain]
  have kept : ((initial.run dailyAtSeven).after secondEarly).Keeps 0 sevenDaily later := by decide +kernel
  have found : (((initial.run dailyAtSeven).after secondEarly).run later).next =
      some ⟨0, LocalTime.ofParts ⟨2024, 1, 3⟩ 7 0 0 0⟩ := by decide +kernel
  obtain ⟨plan, last, -, -, exact⟩ := rung_alarm_advances_iff dailyAtSeven later secondEarly _ _ sevenDaily scheduled rings
    (.inl rfl) steady kept found rfl
  have searched : (((initial.run dailyAtSeven).after secondEarly).plans later).getLast?.map Plan.now = some seven := by
    decide +kernel
  rw [last] at searched
  refine ⟨scheduled, rings, steady, kept, _, found, rfl, (exact ?_).1.mpr ?_⟩
  · exact ⟨by decide, .inr (by decide)⟩
  · rw [Option.some.inj searched]
    exact Int.le_refl _

theorem stop_before_seven_repeats :
    let seven := LocalTime.ofParts ⟨2024, 1, 2⟩ 7 0 0 0
    let later : List Event := [⟨atDawn 6 59 59, .stop⟩, ⟨atDawn 7 0 0, .timerExpired⟩]
    let rung := (initial.run dailyAtSeven).after secondEarly
    (initial.run dailyAtSeven).next = some ⟨0, seven⟩ ∧ rung.ringing = some 0 ∧ sevenDaily.isOneShot = false ∧
      Steady (dailyAtSeven ++ secondEarly :: later) ∧ rung.Keeps 0 sevenDaily later ∧
      (rung.after ⟨atDawn 6 59 59, .stop⟩).next = some ⟨0, seven⟩ ∧ ¬ seven.addDays 1 ≤ seven ∧
      initial.wakes (dailyAtSeven ++ secondEarly :: later) = [0, 0] := by
  intro seven later rung
  have steady : Steady (dailyAtSeven ++ secondEarly :: later) := by
    refine ⟨?_, by decide⟩
    simp [dailyAtSeven, secondEarly, later, at_dawn_plain]
  exact ⟨by decide +kernel, by decide +kernel, by decide, steady, by decide +kernel, by decide +kernel, by decide,
    by decide +kernel⟩

end Controller
end AlarmClock
