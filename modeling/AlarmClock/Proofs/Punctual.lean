import AlarmClock.Proofs.Vigil

set_option autoImplicit false

namespace AlarmClock

structure Plan where
  alarms : Slots
  now : LocalTime

def Plan.answer (plan : Plan) : Option NextAlarm := findNext plan.alarms.toList plan.now

def Event.plan? (e : Event) (c : Controller) : Option Plan :=
  if e.Schedules c then some ⟨(c.after e).alarms.slots, e.around.clock.now⟩ else none

def Controller.plans (c : Controller) : List Event → List Plan
  | [] => []
  | e :: later => (e.plan? c).toList ++ (c.after e).plans later

theorem schedule_succeeds_iff (around : Surroundings) (c : Controller) :
    (c.schedule around).result = .ok () ↔ c.planCommands around ≠ [] := by
  unfold Controller.schedule Controller.planCommands Controller.soonest
  cases findNext c.alarms.slots.toList around.clock.now with
  | none => simp
  | some next =>
      cases around.armFailure with
      | none => simp
      | some failure => simp

theorem schedules_iff (e : Event) (c : Controller) :
    e.Schedules c ↔
      ∃ prepared, e.call.course e.around c = .plans prepared ∧ (prepared.schedule e.around).result = .ok () := by
  obtain ⟨-, commands, wakes⟩ := c.after_course e
  unfold Event.Schedules
  rw [commands, wakes]
  cases e.call.course e.around c with
  | keeps after => simp [Course.commands]
  | plans prepared => simp [Course.commands, Course.wakes, schedule_succeeds_iff]
  | rings next disarms => simp [Course.wakes]

namespace Controller

theorem plans_append (c : Controller) (earlier later : List Event) :
    c.plans (earlier ++ later) = c.plans earlier ++ (c.run earlier).plans later := by
  induction earlier generalizing c with
  | nil => rfl
  | cons e rest ih =>
      change (e.plan? c).toList ++ (c.after e).plans (rest ++ later) = _
      rw [ih (c.after e), ← List.append_assoc]
      rfl

theorem plan_step (c : Controller) (e : Event) :
    (∃ plan, e.plan? c = some plan ∧ (c.after e).next = plan.answer) ∨
      e.plan? c = none ∧ ((c.after e).next = c.next ∨ (c.after e).next = none) := by
  obtain ⟨controller, commands, -⟩ := c.after_course e
  have spec := course_spec e.around c e.call
  have schedules := schedules_iff e c
  unfold Event.plan?
  cases course : e.call.course e.around c with
  | keeps after =>
      obtain ⟨next, -⟩ := course ▸ spec
      have silent : ¬ e.Schedules c := by simp [schedules, course]
      rw [if_neg silent, controller, course]
      exact .inr ⟨rfl, .inl next⟩
  | rings next disarms =>
      have silent : ¬ e.Schedules c := by simp [schedules, course]
      rw [if_neg silent, controller, course]
      exact .inr ⟨rfl, .inr rfl⟩
  | plans prepared =>
      obtain ⟨next, -⟩ := course ▸ spec
      have succeeds : e.Schedules c ↔ prepared.planCommands e.around ≠ [] := by
        simp [schedules, course, schedule_succeeds_iff]
      rw [controller, course]
      simp only [Course.controller]
      unfold planned
      unfold planCommands at succeeds
      cases found : prepared.soonest e.around with
      | none =>
          rw [found] at succeeds
          rw [if_pos (succeeds.mpr (by simp))]
          exact .inl ⟨_, rfl, found.symm⟩
      | some alarm =>
          rw [found] at succeeds
          by_cases fails : e.around.armFailure.isSome = true
          · rw [if_neg (by simp [succeeds, fails])]
            refine .inr ⟨rfl, ?_⟩
            simp only [if_pos fails]
            rw [next]
            by_cases expiry : e.call = .timerExpired
            · exact .inr (if_pos expiry)
            · exact .inl (if_neg expiry)
          · rw [if_pos (by simp [succeeds, fails])]
            refine .inl ⟨_, rfl, ?_⟩
            simp only [if_neg fails]
            exact found.symm

theorem next_since_unset (c : Controller) (unset : c.next = none) (events : List Event) (next : NextAlarm)
    (scheduled : (c.run events).next = some next) :
    ∃ plan, (c.plans events).getLast? = some plan ∧ plan.answer = some next := by
  induction events using List.reverseRecOn generalizing next with
  | nil =>
      change c.next = some next at scheduled
      rw [unset] at scheduled
      cases scheduled
  | append_singleton earlier e ih =>
      rw [run_append] at scheduled
      change ((c.run earlier).after e).next = some next at scheduled
      rw [plans_append]
      change ∃ plan, (c.plans earlier ++ ((e.plan? (c.run earlier)).toList ++ [])).getLast? = _ ∧ _
      rcases (c.run earlier).plan_step e with ⟨plan, planned, answer⟩ | ⟨silent, kept | taken⟩
      · exact ⟨plan, by simp [planned], answer.symm.trans scheduled⟩
      · obtain ⟨plan, last, answer⟩ := ih next (kept.symm.trans scheduled)
        exact ⟨plan, by simpa [silent] using last, answer⟩
      · rw [taken] at scheduled
        cases scheduled

theorem next_is_planned (events : List Event) (next : NextAlarm) (scheduled : (initial.run events).next = some next) :
    ∃ plan, (initial.plans events).getLast? = some plan ∧ plan.answer = some next :=
  initial.next_since_unset rfl events next scheduled

def MayRing (e : Event) (due : LocalTime) : Prop :=
  e.call = .timerExpired ∧ e.around.clock.untilTime due ≤ Span.ofSeconds 1 ∨
    e.call = .resync ∧ due ≤ e.around.clock.now ∨ e.call = .triggerNow

theorem reload_rings_none (around : Surroundings) (c : Controller) (next : NextAlarm) (disarms : Bool) :
    Call.reload.course around c ≠ .rings next disarms := by
  intro rings
  simp only [Call.course] at rings
  cases news : c.news? around with
  | none =>
      rw [news] at rings
      cases rings
  | some news =>
      by_cases ringing : c.ringing.isSome = true
      · simp [news, ringing] at rings
      · simp [news, ringing] at rings

theorem rings_cause (c : Controller) (e : Event) (next : NextAlarm) (disarms : Bool)
    (rings : e.call.course e.around c = .rings next disarms) : MayRing e next.due := by
  obtain ⟨quiet, scheduled, -⟩ := rings ▸ course_spec e.around c e.call
  obtain ⟨around, call⟩ := e
  cases call with
  | timerExpired =>
      refine .inl ⟨rfl, ?_⟩
      simp only [Call.course, quiet, scheduled] at rings
      by_cases early : expirySlack < around.clock.untilTime next.due
      · rw [if_pos early] at rings
        cases rings
      · exact Nat.not_lt.mp early
  | resync =>
      refine .inr (.inl ⟨rfl, ?_⟩)
      simp only [Call.course, quiet, scheduled] at rings
      by_cases overdue : next.due ≤ around.clock.now
      · exact overdue
      · rw [if_neg overdue] at rings
        cases rings
  | triggerNow => exact .inr (.inr rfl)
  | reload => exact absurd rings (reload_rings_none around c next disarms)
  | stop => simp [Call.course, quiet] at rings
  | disable slot =>
      by_cases on : c.alarms.isEnabled slot = true
      · simp [Call.course, on] at rings
      · simp [Call.course, on] at rings
  | init | load | save | schedule | edit slot change => cases rings

theorem wake_cause (c : Controller) (e : Event) (slot : Nat) (woken : slot ∈ (e.outcome c).wakes) :
    ∃ next, c.next = some next ∧ next.slot = slot ∧ MayRing e next.due := by
  have spec := course_spec e.around c e.call
  rw [(c.after_course e).2.2] at woken
  cases course : e.call.course e.around c with
  | keeps after => simp [course, Course.wakes] at woken
  | plans prepared => simp [course, Course.wakes] at woken
  | rings next disarms =>
      obtain ⟨-, scheduled, -⟩ := course ▸ spec
      rw [course] at woken
      exact ⟨next, scheduled, (List.mem_singleton.mp woken).symm, rings_cause c e next disarms course⟩

theorem early_expiry_course (around : Surroundings) (c : Controller) (next : NextAlarm) (quiet : c.ringing = none)
    (scheduled : c.next = some next) (early : Span.ofSeconds 1 < around.clock.untilTime next.due) :
    Call.timerExpired.course around c = .plans { c with next := none } := by
  simp only [Call.course, quiet, scheduled]
  exact if_pos early

theorem no_alarm_rings_early (events : List Event) :
    let c := initial.run events
    (∀ (e : Event), ∀ slot ∈ (e.outcome c).wakes, ∃ next plan, c.next = some next ∧ next.slot = slot ∧
        (initial.plans events).getLast? = some plan ∧ findNext plan.alarms.toList plan.now = some next ∧
        (e.call = .timerExpired ∧ e.around.clock.untilTime next.due ≤ Span.ofSeconds 1 ∨
          e.call = .resync ∧ next.due ≤ e.around.clock.now ∨ e.call = .triggerNow)) ∧
      ∀ (around : Surroundings) next, c.ringing = none → c.next = some next →
        Span.ofSeconds 1 < around.clock.untilTime next.due →
          let e : Event := ⟨around, .timerExpired⟩
          (e.outcome c).wakes = [] ∧ (c.after e).ringing = none ∧
            (around.armFailure = none → (c.after e).next = findNext c.alarms.slots.toList around.clock.now) := by
  intro c
  refine ⟨fun e slot woken => ?_, fun around next quiet scheduled early => ?_⟩
  · obtain ⟨next, scheduled, sameSlot, cause⟩ := c.wake_cause e slot woken
    obtain ⟨plan, last, answer⟩ := next_is_planned events next scheduled
    exact ⟨next, plan, scheduled, sameSlot, last, answer, cause⟩
  · obtain ⟨controller, -, wakes⟩ := c.after_course ⟨around, .timerExpired⟩
    have course := early_expiry_course around c next quiet scheduled early
    rw [course] at controller wakes
    intro e
    refine ⟨wakes, ?_, fun arms => ?_⟩
    · rw [controller]
      exact quiet
    · rw [controller]
      simp only [Course.controller, planned, soonest, arms]
      cases findNext c.alarms.slots.toList around.clock.now with
      | none => rfl
      | some next => rfl

def atDawn (hour minute second : Nat) : Surroundings :=
  ⟨Clock.plain ⟨⟨2024, 1, 2⟩, hour, minute, second, 0⟩, none, .ok none, none⟩

def restless : List Event :=
  [⟨atDawn 6 0 0, .edit 0 (.setEnabled true)⟩, ⟨atDawn 6 0 0, .schedule⟩,
    ⟨{ atDawn 6 30 0 with armFailure := some (.timer "out of timers") }, .timerExpired⟩, ⟨atDawn 6 45 0, .resync⟩]

theorem restless_alarm_is_punctual :
    let c := initial.run restless
    let next : NextAlarm := ⟨0, LocalTime.ofParts ⟨2024, 1, 2⟩ 7 0 0 0⟩
    c.ringing = none ∧ c.next = some next ∧ Span.ofSeconds 1 < (atDawn 6 59 58).clock.untilTime next.due ∧
      ((⟨atDawn 6 59 58, .timerExpired⟩ : Event).outcome c).wakes = [] ∧
      ((⟨atDawn 6 59 59, .timerExpired⟩ : Event).outcome c).wakes = [0] ∧
      ∃ plan, (initial.plans restless).getLast? = some plan ∧ findNext plan.alarms.toList plan.now = some next := by
  have quiet : (initial.run restless).ringing = none := by decide +kernel
  have scheduled : (initial.run restless).next = some ⟨0, LocalTime.ofParts ⟨2024, 1, 2⟩ 7 0 0 0⟩ := by decide +kernel
  have early : Span.ofSeconds 1 < (atDawn 6 59 58).clock.untilTime (LocalTime.ofParts ⟨2024, 1, 2⟩ 7 0 0 0) := by decide
  have woken : ((⟨atDawn 6 59 59, .timerExpired⟩ : Event).outcome (initial.run restless)).wakes = [0] := by decide +kernel
  obtain ⟨rings, waits⟩ := no_alarm_rings_early restless
  obtain ⟨next, plan, same, -, last, answer, -⟩ :=
    rings ⟨atDawn 6 59 59, .timerExpired⟩ 0 (by rw [woken]; exact List.mem_singleton_self 0)
  obtain rfl := Option.some.inj (scheduled.symm.trans same)
  exact ⟨quiet, scheduled, early, (waits (atDawn 6 59 58) _ quiet scheduled early).1, woken, plan, last, answer⟩

end Controller
end AlarmClock
