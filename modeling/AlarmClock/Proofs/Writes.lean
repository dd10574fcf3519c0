import AlarmClock.Proofs.Course

set_option autoImplicit false

namespace AlarmClock

def Effect.written? : Effect → Option Bytes
  | .write bytes => some bytes
  | .arm _ | .disarm | .wake _ | .log _ => none

theorem logs_write_nothing (notices : List Notice) : (notices.map Effect.log).filterMap Effect.written? = [] :=
  logs_filtered Effect.written? (fun _ => rfl) notices

namespace Outcome

variable {α β : Type}

def writes (outcome : Outcome α) : List Bytes := outcome.effects.filterMap Effect.written?

@[simp] theorem writes_after (earlier : List Effect) (outcome : Outcome α) :
    (outcome.after earlier).writes = earlier.filterMap Effect.written? ++ outcome.writes :=
  List.filterMap_append

theorem and_then_ok (outcome : Outcome (Except Failure α)) (f : Controller → Outcome (Except Failure β)) (value : α)
    (succeeds : outcome.result = .ok value) : outcome.andThen f = (f outcome.controller).after outcome.effects := by
  unfold andThen
  rw [succeeds]

theorem writes_and_then (outcome : Outcome (Except Failure α)) (f : Controller → Outcome (Except Failure β)) (value : α)
    (succeeds : outcome.result = .ok value) (silent : outcome.writes = []) :
    (outcome.andThen f).writes = (f outcome.controller).writes := by
  rw [outcome.and_then_ok f value succeeds, writes_after]
  exact congrArg (· ++ _) silent

end Outcome

namespace Controller

theorem schedule_writes (around : Surroundings) (c : Controller) : (c.schedule around).writes = [] := by
  unfold schedule
  cases findNext c.alarms.slots.toList around.clock.now with
  | none =>
      by_cases armed : c.next.isSome = true
      · simp [armed, Outcome.writes, Effect.written?]
      · simp [armed, Outcome.writes, Effect.written?]
  | some next =>
      cases around.armFailure with
      | none => rfl
      | some failure => rfl

theorem save_writes (around : Surroundings) (c : Controller) :
    (c.save around).writes = if c.alarms.dirty then [Record.encode c.alarms.slots] else [] := by
  unfold save
  by_cases dirty : c.alarms.dirty = true
  · rw [if_pos dirty, if_pos dirty]
    cases around.writeFailure with
    | none => rfl
    | some cause => rfl
  · rw [if_neg dirty, if_neg dirty]
    rfl

theorem call_writes_nothing (c : Controller) (e : Event) (savesNot : e.call ≠ .save) : (e.outcome c).writes = [] := by
  have realizes := call_realizes e.around c e.call savesNot
  refine (realizes.filtered Effect.written? fun _ => rfl).trans ?_
  cases e.call.course e.around c with
  | keeps after => rfl
  | plans prepared => exact prepared.schedule_writes e.around
  | rings next disarms =>
      cases disarms with
      | true => rfl
      | false => rfl

theorem call_writes (c : Controller) (e : Event) :
    (e.outcome c).writes = if e.call = .save ∧ c.alarms.dirty = true then [Record.encode c.alarms.slots] else [] := by
  obtain ⟨around, call⟩ := e
  by_cases saves : call = .save
  · subst saves
    simp only [true_and]
    exact c.save_writes around
  · rw [if_neg fun both => saves both.1]
    exact c.call_writes_nothing ⟨around, call⟩ saves

theorem schedule_done (around : Surroundings) (c : Controller) (arms : around.armFailure = none) :
    (c.schedule around).result = .ok () := by
  unfold schedule
  rw [arms]
  cases findNext c.alarms.slots.toList around.clock.now with
  | none => rfl
  | some next => rfl

theorem save_done (around : Surroundings) (c : Controller) (writes : around.writeFailure = none) :
    (c.save around).result = .ok () := by
  unfold save
  rw [writes]
  by_cases dirty : c.alarms.dirty = true
  · rw [if_pos dirty]
  · rw [if_neg dirty]

end Controller
end AlarmClock
