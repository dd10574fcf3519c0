import AlarmClock.Proofs.Writes

set_option autoImplicit false

namespace AlarmClock

theorem Realizes.refused {around : Surroundings} {c : Controller} {outcome : Outcome Reply} {course : Course}
    (realizes : Realizes around c outcome course) (slot : Nat) (failure : Failure)
    (logged : Effect.log (.armFailed slot failure) ∈ outcome.effects) :
    Effect.log (.armFailed slot failure) ∈ course.effects around := by
  obtain ⟨before, after, others, effects⟩ := realizes.effects
  have elsewhere : ∀ notices : List Notice, (∀ notice ∈ notices, notice.refuses = false) →
      Effect.log (.armFailed slot failure) ∉ notices.map .log := by
    intro notices silent present
    obtain ⟨notice, among, same⟩ := List.mem_map.mp present
    obtain rfl := Effect.log.inj same
    cases silent _ among
  obtain ⟨earlier, later⟩ := List.forall_mem_append.mp others
  rw [effects] at logged
  rcases List.mem_append.mp logged with first | last
  · exact (List.mem_append.mp first).resolve_left (elsewhere before earlier)
  · exact absurd last (elsewhere after later)

namespace Controller

theorem schedule_fails_iff (around : Surroundings) (c : Controller) (failure : Failure) :
    (c.schedule around).result = .error failure ↔
      around.armFailure = some failure ∧ (c.soonest around).isSome = true := by
  unfold schedule soonest
  cases findNext c.alarms.slots.toList around.clock.now with
  | none => simp
  | some next =>
      cases around.armFailure with
      | none => simp
      | some cause => simp

theorem schedule_refusal (around : Surroundings) (c : Controller) (slot : Nat) (failure : Failure)
    (logged : Effect.log (.armFailed slot failure) ∈ (c.schedule around).effects) :
    (c.schedule around).result = .error failure := by
  unfold schedule at logged ⊢
  cases found : findNext c.alarms.slots.toList around.clock.now with
  | none =>
      rw [found] at logged
      by_cases armed : c.next.isSome = true
      · simp [armed] at logged
      · simp [armed] at logged
  | some next =>
      cases fails : around.armFailure with
      | some cause =>
          simp only [found, fails, List.mem_singleton, Effect.log.injEq, Notice.armFailed.injEq] at logged
          rw [logged.2]
      | none =>
          rw [found, fails] at logged
          by_cases same : c.next = some next
          · simp [same] at logged
          · simp [same] at logged

theorem save_logs_no_refusal (around : Surroundings) (c : Controller) (slot : Nat) (failure : Failure) :
    Effect.log (.armFailed slot failure) ∉ (c.save around).effects := by
  unfold save
  by_cases dirty : c.alarms.dirty = true
  · rw [if_pos dirty]
    cases around.writeFailure with
    | none => simp
    | some cause => simp
  · rw [if_neg dirty]
    simp

theorem refusal_course (c : Controller) (e : Event) (slot : Nat) (failure : Failure)
    (logged : Effect.log (.armFailed slot failure) ∈ (e.outcome c).effects) :
    (e.call.course e.around c).Fails e.around failure := by
  by_cases saves : e.call = .save
  · obtain ⟨around, call⟩ := e
    obtain rfl : call = .save := saves
    exact absurd logged (c.save_logs_no_refusal around slot failure)
  · have scheduled := (call_realizes e.around c e.call saves).refused slot failure logged
    cases course : e.call.course e.around c with
    | keeps after => simp [course, Course.effects] at scheduled
    | plans prepared =>
        rw [course] at scheduled
        exact prepared.schedule_refusal e.around slot failure scheduled
    | rings next disarms =>
        cases disarms with
        | true => simp [course, Course.effects] at scheduled
        | false => simp [course, Course.effects] at scheduled

theorem failed_schedule_keeps (around : Surroundings) (c : Controller) (failure : Failure)
    (fails : (c.schedule around).result = .error failure) : c.planned around = c.next ∧ c.planCommands around = [] := by
  obtain ⟨unarmed, finds⟩ := (c.schedule_fails_iff around failure).mp fails
  obtain ⟨next, found⟩ := Option.isSome_iff_exists.mp finds
  simp [planned, planCommands, found, unarmed]

end Controller

-- What a call does before its schedule does not depend on the timer.
theorem course_without_timer (around : Surroundings) (armFailure : Option Failure) (c : Controller) (call : Call) :
    call.course { around with armFailure := armFailure } c = call.course around c := by
  cases call with
  | init | load | reload | save | schedule | resync | timerExpired | triggerNow | stop => rfl
  | disable slot | edit slot change => rfl

def Surroundings.repaired (around : Surroundings) : Surroundings := { around with armFailure := none }

theorem Controller.fails_prepared (c : Controller) (e : Event) (failure : Failure)
    (fails : (e.call.course e.around c).Fails e.around failure) :
    e.call.course e.around c = .plans (c.after e) ∧ (e.outcome c).commands = [] := by
  obtain ⟨controller, commands, -⟩ := c.after_course e
  cases course : e.call.course e.around c with
  | keeps after =>
      rw [course] at fails
      cases fails
  | rings next disarms =>
      rw [course] at fails
      cases fails
  | plans prepared =>
      rw [course] at fails controller commands
      obtain ⟨kept, silent⟩ := prepared.failed_schedule_keeps e.around failure fails
      simp only [Course.controller, kept] at controller
      rw [controller]
      exact ⟨rfl, commands.trans silent⟩

structure Station where
  controller : Controller
  pending : Option Nat
  saved : Option Bytes
deriving DecidableEq

namespace Station

def hears (s : Station) (e : Event) : Station where
  controller := s.controller.after e
  pending := heldAfter s.pending (e.outcome s.controller).commands
  saved := if e.around.writeFailure.isSome then s.saved else (e.outcome s.controller).writes.getLast?.or s.saved

theorem plans_save_nothing (s : Station) (e : Event) (prepared : Controller)
    (plans : e.call.course e.around s.controller = .plans prepared) : (s.hears e).saved = s.saved := by
  have silent : (e.outcome s.controller).writes = [] := by
    rw [s.controller.call_writes e, if_neg]
    rintro ⟨save, -⟩
    rw [save] at plans
    cases plans
  simp [hears, silent]

theorem failed_then_schedule (s : Station) (e : Event) (failure : Failure)
    (fails : (e.call.course e.around s.controller).Fails e.around failure) :
    (s.hears e).hears ⟨e.around.repaired, .schedule⟩ = s.hears ⟨e.around.repaired, e.call⟩ := by
  obtain ⟨plans, silent⟩ := s.controller.fails_prepared e failure fails
  have working : e.call.course e.around.repaired s.controller = .plans (s.controller.after e) :=
    (course_without_timer e.around none s.controller e.call).trans plans
  obtain ⟨controller, commands, -⟩ := s.controller.after_course ⟨e.around.repaired, e.call⟩
  rw [working] at controller commands
  obtain ⟨later, laterCommands, -⟩ := (s.controller.after e).after_course ⟨e.around.repaired, .schedule⟩
  have unsaved := s.plans_save_nothing e _ plans
  have unsavedWorking := s.plans_save_nothing ⟨e.around.repaired, e.call⟩ _ working
  have unsavedLater := (s.hears e).plans_save_nothing ⟨e.around.repaired, .schedule⟩ _ rfl
  rw [Station.mk.injEq]
  refine ⟨later.trans controller.symm, ?_, (unsavedLater.trans unsaved).trans unsavedWorking.symm⟩
  simp only [hears, silent, heldAfter, List.foldl_nil]
  exact congrArg _ (laterCommands.trans commands.symm)

-- The logged refusal stands for any call in which the timer was asked for a deadline and could not be armed.
theorem schedule_repairs_failed_arm (s : Station) (e : Event) (slot : Nat) (failure : Failure)
    (fails : Effect.log (.armFailed slot failure) ∈ (e.outcome s.controller).effects) :
    (s.hears e).pending = s.pending ∧
      ((⟨e.around.repaired, .schedule⟩ : Event).outcome (s.hears e).controller).result = .done ∧
      (s.hears e).hears ⟨e.around.repaired, .schedule⟩ = s.hears ⟨e.around.repaired, e.call⟩ := by
  have courseFails := s.controller.refusal_course e slot failure fails
  obtain ⟨-, silent⟩ := s.controller.fails_prepared e failure courseFails
  refine ⟨?_, ?_, s.failed_then_schedule e failure courseFails⟩
  · rw [hears, silent]
    rfl
  · exact congrArg Reply.ofUnit ((s.hears e).controller.schedule_done e.around.repaired rfl)

def morningAt (hour minute : Nat) : Surroundings :=
  ⟨Clock.plain ⟨⟨2024, 1, 2⟩, hour, minute, 0, 0⟩, none, .ok none, none⟩

def outOfTimers : Failure := .timer "out of timers"

def refusing (around : Surroundings) : Surroundings := { around with armFailure := some outOfTimers }

def ringingAtSeven : Station :=
  ⟨Controller.initial.run [⟨morningAt 6 0, .edit 0 (.setEnabled true)⟩, ⟨morningAt 6 0, .edit 1 (.setTime 8 0)⟩,
    ⟨morningAt 6 0, .edit 1 (.setEnabled true)⟩, ⟨morningAt 6 0, .schedule⟩, ⟨morningAt 7 0, .timerExpired⟩], none, none⟩

theorem failed_stop_is_repaired :
    let failed := ringingAtSeven.hears ⟨refusing (morningAt 7 1), .stop⟩
    let repaired := failed.hears ⟨(refusing (morningAt 7 1)).repaired, .schedule⟩
    Effect.log (.armFailed 1 outOfTimers) ∈
        ((⟨refusing (morningAt 7 1), .stop⟩ : Event).outcome ringingAtSeven.controller).effects ∧
      failed.controller.status = .idle ∧ failed.pending = ringingAtSeven.pending ∧
      repaired = ringingAtSeven.hears ⟨(refusing (morningAt 7 1)).repaired, .stop⟩ ∧
      repaired.controller.status = .armed ⟨1, LocalTime.ofParts ⟨2024, 1, 2⟩ 8 0 0 0⟩ ∧
      repaired.pending = some (Span.ofSeconds 3540) := by
  have logged : Effect.log (.armFailed 1 outOfTimers) ∈
      ((⟨refusing (morningAt 7 1), .stop⟩ : Event).outcome ringingAtSeven.controller).effects := by decide +kernel
  obtain ⟨pending, -, same⟩ := schedule_repairs_failed_arm ringingAtSeven ⟨refusing (morningAt 7 1), .stop⟩ 1 _ logged
  exact ⟨logged, by decide +kernel, pending, same, by decide +kernel, by decide +kernel⟩

end Station
end AlarmClock
