import AlarmClock.Proofs.Slots
import AlarmClock.Proofs.Soonest
import AlarmClock.Proofs.Wakes

set_option autoImplicit false

namespace AlarmClock

def Event.Schedules (e : Event) (c : Controller) : Prop := (e.outcome c).commands ≠ [] ∧ (e.outcome c).wakes = []

instance (e : Event) (c : Controller) : Decidable (e.Schedules c) := inferInstanceAs (Decidable (_ ∧ _))

-- `undelivered` counts the expiries that the controller has not heard of yet, `plannedAt` is the clock at the last
-- schedule.
structure Vigil where
  controller : Controller
  pending : Option Nat
  undelivered : Nat
  now : LocalTime
  plannedAt : LocalTime

namespace Vigil

def hears (s : Vigil) (e : Event) : Vigil where
  controller := s.controller.after e
  pending := heldAfter s.pending (e.outcome s.controller).commands
  undelivered := s.undelivered
  now := e.around.clock.now
  plannedAt := if e.Schedules s.controller then e.around.clock.now else s.plannedAt

def begun (around : Surroundings) : Vigil :=
  hears ⟨Controller.initial, none, 0, around.clock.now, around.clock.now⟩ ⟨around, .init⟩

inductive Move where
  | passes (time : LocalTime)
  | calls (e : Event)
  | amends (e : Event)
  | sets (e : Event)
  | fires
  | delivers (around : Surroundings)

def Meets (s : Vigil) (around : Surroundings) : Prop := around.clock.now = s.now ∧ around.armFailure = none

-- A call may be an expiry that the timer knows nothing of. A clock that is set may go back as well as forward.
def Allowed (s : Vigil) : Move → Prop
  | .passes time => s.now ≤ time
  | .calls e => s.Meets e.around ∧ e.call.amends = false
  | .amends e => s.Meets e.around ∧ e.call.amends = true
  | .sets e => e.around.armFailure = none ∧ (e.call = .schedule ∨ e.call = .resync)
  | .fires => s.pending.isSome = true
  | .delivers around => s.Meets around ∧ 0 < s.undelivered

def step (s : Vigil) : Move → Vigil
  | .passes time => { s with now := time }
  | .calls e | .sets e => s.hears e
  | .amends e => (s.hears e).hears ⟨e.around, .schedule⟩
  | .fires => { s with pending := none, undelivered := s.undelivered + 1 }
  | .delivers around => { s with undelivered := s.undelivered - 1 }.hears ⟨around, .timerExpired⟩

inductive Reached : Vigil → Prop where
  | init (around : Surroundings) (arms : around.armFailure = none) : Reached (begun around)
  | step (s : Vigil) (m : Move) (reached : Reached s) (allowed : s.Allowed m) : Reached (s.step m)

structure Planned (s : Vigil) : Prop where
  order : s.plannedAt ≤ s.now
  next : s.controller.next = findNext s.controller.alarms.slots.toList s.plannedAt

def Held (s : Vigil) : Prop := s.controller.next.isSome = true → s.pending.isSome = true ∨ 0 < s.undelivered

-- While an alarm rings, `next` and the timer may be anything: the stop schedules.
structure Tended (s : Vigil) : Prop where
  timed : s.controller.alarms.Timed
  planned : s.controller.ringing = none → s.Planned
  held : s.controller.ringing = none → s.Held

theorem plan_tended (s : Vigil) (e : Event) (prepared : Controller) (arms : e.around.armFailure = none)
    (plans : e.call.course e.around s.controller = .plans prepared) : (s.hears e).Planned ∧ (s.hears e).Held := by
  obtain ⟨controller, commands, wakes⟩ := s.controller.after_course e
  rw [plans] at controller commands wakes
  have told : prepared.planCommands e.around ≠ [] := by
    unfold Controller.planCommands
    cases prepared.soonest e.around with
    | none => exact nofun
    | some next => simp [arms]
  have plannedAt : (s.hears e).plannedAt = e.around.clock.now := if_pos ⟨commands.symm ▸ told, wakes⟩
  refine ⟨⟨?_, ?_⟩, ?_⟩
  · rw [plannedAt]
    exact Int.le_refl _
  · rw [plannedAt]
    simp only [hears, controller, Course.controller, Controller.planned, arms, Controller.soonest]
    cases findNext prepared.alarms.slots.toList e.around.clock.now with
    | none => rfl
    | some next => rfl
  · simp only [Held, hears, controller, commands, Course.controller, Course.commands]
    rcases prepared.plan_held e.around s.pending with ⟨-, held⟩ | ⟨silent, -⟩
    · exact fun scheduled => .inl (held.mp scheduled)
    · exact absurd silent told

theorem ring_loud (s : Vigil) (e : Event) (next : NextAlarm) (disarms : Bool)
    (rings : e.call.course e.around s.controller = .rings next disarms) : (s.hears e).controller.ringing ≠ none := by
  have controller := (s.controller.after_course e).1
  rw [rings] at controller
  change (s.controller.after e).ringing ≠ none
  rw [controller]
  exact nofun

theorem keep_quiet (s : Vigil) (e : Event) (after : Controller)
    (keeps : e.call.course e.around s.controller = .keeps after) (quiet : (s.hears e).controller.ringing = none) :
    (s.hears e).controller = after ∧ after.next = s.controller.next ∧ s.controller.ringing = none := by
  have controller := (s.controller.after_course e).1
  have spec := course_spec e.around s.controller e.call
  rw [keeps] at controller spec
  obtain ⟨next, ringing, -⟩ := spec
  change (s.controller.after e).ringing = none at quiet
  rw [controller] at quiet
  exact ⟨controller, next, ringing.symm.trans quiet⟩

theorem hears_planned (s : Vigil) (e : Event) (arms : e.around.armFailure = none) (amendsNot : e.call.amends = false)
    (clock : ∀ after, e.call.course e.around s.controller = .keeps after → s.controller.ringing = none →
      e.around.clock.now = s.now)
    (planned : s.controller.ringing = none → s.Planned) (quiet : (s.hears e).controller.ringing = none) :
    (s.hears e).Planned := by
  cases course : e.call.course e.around s.controller with
  | plans prepared => exact (s.plan_tended e prepared arms course).1
  | rings next disarms => exact absurd quiet (s.ring_loud e next disarms course)
  | keeps after =>
      obtain ⟨controller, next, before⟩ := s.keep_quiet e after course quiet
      have commands := (s.controller.after_course e).2.1
      rw [course] at commands
      have plannedAt : (s.hears e).plannedAt = s.plannedAt := if_neg fun schedules => schedules.1 commands
      have slots := quiet_keeps_slots e.around s.controller after e.call amendsNot before course
      refine ⟨?_, ?_⟩
      · rw [plannedAt]
        change s.plannedAt ≤ e.around.clock.now
        rw [clock after course before]
        exact (planned before).order
      · rw [plannedAt, controller, next, slots]
        exact (planned before).next

theorem hears_held (s : Vigil) (e : Event) (arms : e.around.armFailure = none)
    (held : e.call ≠ .timerExpired → s.controller.ringing = none → s.Held)
    (quiet : (s.hears e).controller.ringing = none) : (s.hears e).Held := by
  cases course : e.call.course e.around s.controller with
  | plans prepared => exact (s.plan_tended e prepared arms course).2
  | rings next disarms => exact absurd quiet (s.ring_loud e next disarms course)
  | keeps after =>
      obtain ⟨controller, next, before⟩ := s.keep_quiet e after course quiet
      have spec := course_spec e.around s.controller e.call
      have commands := (s.controller.after_course e).2.1
      rw [course] at spec commands
      obtain ⟨-, -, -, heard⟩ := spec
      have pending : (s.hears e).pending = s.pending := by
        simp only [hears, commands, Course.commands, heldAfter, List.foldl_nil]
      change (s.hears e).controller.next.isSome = true → (s.hears e).pending.isSome = true ∨ 0 < s.undelivered
      rw [controller, next, pending]
      by_cases expiry : e.call = .timerExpired
      · intro scheduled
        rw [heard expiry before] at scheduled
        cases scheduled
      · exact held expiry before

theorem begun_tended (around : Surroundings) (arms : around.armFailure = none) : (begun around).Tended := by
  have plan := plan_tended ⟨Controller.initial, none, 0, around.clock.now, around.clock.now⟩ ⟨around, .init⟩ _ arms rfl
  exact ⟨Controller.initial.after_timed _ AlarmSet.timed_empty, fun _ => plan.1, fun _ => plan.2⟩

theorem step_tended (s : Vigil) (m : Move) (tended : s.Tended) (allowed : s.Allowed m) : (s.step m).Tended := by
  cases m with
  | passes time =>
      refine ⟨tended.timed, fun quiet => ?_, tended.held⟩
      exact ⟨Int.le_trans (tended.planned quiet).order allowed, (tended.planned quiet).next⟩
  | calls e =>
      obtain ⟨⟨clock, arms⟩, amendsNot⟩ := allowed
      exact ⟨s.controller.after_timed e tended.timed,
        s.hears_planned e arms amendsNot (fun _ _ _ => clock) tended.planned,
        s.hears_held e arms fun _ => tended.held⟩
  | amends e =>
      obtain ⟨⟨-, arms⟩, -⟩ := allowed
      have plan := (s.hears e).plan_tended ⟨e.around, .schedule⟩ _ arms rfl
      have timed := s.controller.after_timed e tended.timed
      exact ⟨(s.controller.after e).after_timed _ timed, fun _ => plan.1, fun _ => plan.2⟩
  | sets e =>
      obtain ⟨arms, call⟩ := allowed
      have amendsNot : e.call.amends = false := by
        rcases call with call | call
        · rw [call]
          rfl
        · rw [call]
          rfl
      -- a clock that went back is no matter, as both calls look at it unless an alarm is ringing
      have looks : ∀ after, s.controller.ringing = none → e.call.course e.around s.controller ≠ .keeps after := by
        intro after quiet
        rcases call with call | call
        · rw [call]
          exact nofun
        · rw [call]
          exact resync_acts e.around s.controller after quiet
      exact ⟨s.controller.after_timed e tended.timed,
        s.hears_planned e arms amendsNot (fun after keeps quiet => absurd keeps (looks after quiet)) tended.planned,
        s.hears_held e arms fun _ => tended.held⟩
  | fires =>
      refine ⟨tended.timed, fun quiet => ?_, fun _ _ => .inr (Nat.succ_pos _)⟩
      exact ⟨(tended.planned quiet).order, (tended.planned quiet).next⟩
  | delivers around =>
      obtain ⟨⟨clock, arms⟩, -⟩ := allowed
      let spent : Vigil := { s with undelivered := s.undelivered - 1 }
      have planned : spent.controller.ringing = none → spent.Planned := fun quiet =>
        ⟨(tended.planned quiet).order, (tended.planned quiet).next⟩
      exact ⟨s.controller.after_timed _ tended.timed,
        spent.hears_planned ⟨around, .timerExpired⟩ arms rfl (fun _ _ _ => clock) planned,
        spent.hears_held ⟨around, .timerExpired⟩ arms fun other => absurd rfl other⟩

theorem reached_tended (s : Vigil) (reached : Reached s) : s.Tended := by
  induction reached with
  | init around arms => exact begun_tended around arms
  | step s m _ allowed ih => exact s.step_tended m ih allowed

theorem armed_alarm_is_soonest (s : Vigil) (reached : Reached s) (quiet : s.controller.ringing = none) :
    let c := s.controller
    let alarms := c.alarms.slots.toList
    c.next = findNext alarms s.plannedAt ∧
      ((∀ next, c.next = some next → s.now < next.due) → c.next = findNext alarms s.now) ∧
      (c.next.isSome = true → s.pending.isSome = true ∨ 0 < s.undelivered) ∧
      ∀ (e : Event), ∀ slot ∈ (e.outcome c).wakes, ∃ next alarm,
        c.next = some next ∧ next.slot = slot ∧ alarms[slot]? = some alarm ∧ alarm.enabled = true ∧
          alarm.FirstAfter s.plannedAt next.due ∧
          ∀ other ∈ alarms, other.enabled = true → ∀ time, other.RingsAt time → s.plannedAt < time → next.due ≤ time := by
  intro c alarms
  obtain ⟨timed, planned, held⟩ := s.reached_tended reached
  obtain ⟨order, chosen⟩ := planned quiet
  refine ⟨chosen, fun ahead => ?_, held quiet, fun e slot woken => ?_⟩
  · have stable := find_next_stable alarms s.plannedAt s.now timed order fun next found => ahead next (chosen.trans found)
    exact chosen.trans stable.symm
  · obtain ⟨-, next, scheduled, rfl⟩ := c.woken_is_next e slot woken
    have found : findNext alarms s.plannedAt = some next := chosen.symm.trans scheduled
    obtain ⟨alarm, access, on, due⟩ := find_next_slot alarms s.plannedAt next found
    have first := alarm.next_occurrence_first s.plannedAt next.due (timed alarm (List.mem_of_getElem? access)) due
    exact ⟨next, alarm, scheduled, rfl, access, on, first, find_next_least alarms s.plannedAt next timed found⟩

def early : Surroundings := ⟨Clock.plain ⟨⟨2024, 1, 2⟩, 6, 0, 0, 0⟩, none, .ok none, none⟩

def switchedOn : Vigil := (begun early).step (.amends ⟨early, .edit 0 (.setEnabled true)⟩)

def morning : Vigil := (switchedOn.step (.passes (LocalTime.ofParts ⟨2024, 1, 2⟩ 7 0 0 0))).step .fires

theorem morning_alarm_is_soonest :
    Reached morning ∧ morning.controller.ringing = none ∧ morning.pending = none ∧
      morning.controller.next = some ⟨0, LocalTime.ofParts ⟨2024, 1, 2⟩ 7 0 0 0⟩ ∧
      morning.controller.next = findNext morning.controller.alarms.slots.toList morning.plannedAt ∧
      0 < morning.undelivered := by
  have on : Reached switchedOn := .step (begun early) (.amends _) (.init early rfl) ⟨⟨rfl, rfl⟩, rfl⟩
  have later : switchedOn.now ≤ LocalTime.ofParts ⟨2024, 1, 2⟩ 7 0 0 0 := by decide
  have pending : switchedOn.pending.isSome = true := by decide +kernel
  have reached : Reached morning := .step _ .fires (.step switchedOn (.passes _) on later) pending
  have quiet : morning.controller.ringing = none := by decide +kernel
  have silent : morning.pending = none := by decide
  obtain ⟨chosen, -, held, -⟩ := armed_alarm_is_soonest morning reached quiet
  refine ⟨reached, quiet, silent, by decide +kernel, chosen, ?_⟩
  rcases held (by decide +kernel) with pending | undelivered
  · rw [silent] at pending
    exact absurd pending (by decide)
  · exact undelivered

end Vigil
end AlarmClock
