import AlarmClock.Device
import AlarmClock.TimerThread

set_option autoImplicit false

namespace AlarmClock

def Effect.command? : Effect → Option TimerCommand
  | .arm span => some (.arm span)
  | .disarm => some .disarm
  | .wake _ | .write _ | .log _ => none

def Effect.woken? : Effect → Option Nat
  | .wake slot => some slot
  | .arm _ | .disarm | .write _ | .log _ => none

def TimerCommand.deadline? : TimerCommand → Option Nat
  | .arm span => some span
  | .disarm => none

def heldAfter (pending : Option Nat) (commands : List TimerCommand) : Option Nat :=
  commands.foldl (fun _ command => command.deadline?) pending

theorem logs_filtered {β : Type} (f : Effect → Option β) (silent : ∀ notice, f (.log notice) = none)
    (notices : List Notice) : (notices.map Effect.log).filterMap f = [] := by
  rw [List.filterMap_map]
  exact List.filterMap_eq_nil_iff.mpr fun notice _ => silent notice

namespace Outcome

variable {α : Type}

def commands (outcome : Outcome α) : List TimerCommand := outcome.effects.filterMap Effect.command?

def wakes (outcome : Outcome α) : List Nat := outcome.effects.filterMap Effect.woken?

theorem after_after (first second : List Effect) (outcome : Outcome α) :
    (outcome.after second).after first = outcome.after (first ++ second) := by
  simp only [after, List.append_assoc]

end Outcome

inductive Call where
  | init
  | load
  | reload
  | save
  | schedule
  | resync
  | timerExpired
  | triggerNow
  | stop
  | disable (slot : Nat)
  | edit (slot : Nat) (change : Edit)
deriving DecidableEq

namespace Call

def outcome (around : Surroundings) (c : Controller) : Call → Outcome Reply
  | .init => (c.init around).map .ofUnit
  | .load => (c.load around).map fun _ => .done
  | .reload => (c.reload around).map .ofBool
  | .save => (c.save around).map .ofUnit
  | .schedule => (c.schedule around).map .ofUnit
  | .resync => (c.resync around).map .ofUnit
  | .timerExpired => (c.timerExpired around).map fun _ => .done
  | .triggerNow => c.triggerNow.map fun _ => .done
  | .stop => (c.stop around).map .ofUnit
  | .disable slot => (c.disable slot around).map .ofUnit
  | .edit slot change => (c.edit slot change).map fun _ => .done

def action : Call → Action
  | .init => .init
  | .load => .load
  | .reload => .reload
  | .save => .save
  | .schedule => .schedule
  | .resync => .resync
  | .timerExpired => .timerExpired
  | .triggerNow => .triggerNow
  | .stop => .stop
  | .disable slot => .disable slot
  | .edit slot change => .edit slot change

-- A device does nothing else with its controller, so what holds of every call holds of every device.
theorem device_step (d : Device) (call : Call) :
    d.step call.action = d.call id (call.outcome d.surroundings d.controller) := by
  cases call <;> rfl

end Call

structure Event where
  around : Surroundings
  call : Call

def Event.outcome (e : Event) (c : Controller) : Outcome Reply := e.call.outcome e.around c

namespace Controller

def after (c : Controller) (e : Event) : Controller := (e.outcome c).controller

def run (c : Controller) (events : List Event) : Controller := events.foldl after c

theorem run_append (c : Controller) (earlier later : List Event) :
    c.run (earlier ++ later) = (c.run earlier).run later := List.foldl_append

def soonest (around : Surroundings) (c : Controller) : Option NextAlarm :=
  findNext c.alarms.slots.toList around.clock.now

def planned (around : Surroundings) (c : Controller) : Option NextAlarm :=
  match c.soonest around with
  | none => none
  | some next => if around.armFailure.isSome then c.next else some next

def planCommands (around : Surroundings) (c : Controller) : List TimerCommand :=
  match c.soonest around with
  | none => [.disarm]
  | some next => if around.armFailure.isSome then [] else [.arm (around.clock.untilTime next.due)]

theorem schedule_spec (around : Surroundings) (c : Controller) :
    (c.schedule around).controller = { c with next := c.planned around } ∧
      (c.schedule around).commands = c.planCommands around ∧ (c.schedule around).wakes = [] := by
  unfold schedule planned planCommands soonest
  cases findNext c.alarms.slots.toList around.clock.now with
  | none =>
      refine ⟨rfl, ?_, ?_⟩
      · by_cases armed : c.next.isSome <;> simp [armed, Outcome.commands, Effect.command?]
      · by_cases armed : c.next.isSome <;> simp [armed, Outcome.wakes, Effect.woken?]
  | some next =>
      cases around.armFailure with
      | none => exact ⟨rfl, rfl, rfl⟩
      | some failure => exact ⟨rfl, rfl, rfl⟩

theorem plan_held (around : Surroundings) (c : Controller) (pending : Option Nat) :
    c.planCommands around ≠ [] ∧
        ((c.planned around).isSome = true ↔ (heldAfter pending (c.planCommands around)).isSome = true) ∨
      c.planCommands around = [] ∧ c.planned around = c.next := by
  unfold planned planCommands
  cases c.soonest around with
  | none => exact .inl ⟨by simp, by simp [heldAfter, TimerCommand.deadline?]⟩
  | some next =>
      by_cases fails : around.armFailure.isSome = true
      · exact .inr ⟨if_pos fails, if_pos fails⟩
      · refine .inl ⟨by simp [fails], ?_⟩
        simp [fails, heldAfter, TimerCommand.deadline?]

theorem load_spec (around : Surroundings) (c : Controller) :
    (c.load around).controller.next = c.next ∧ (c.load around).controller.ringing = c.ringing := by
  unfold load
  cases around.saved with
  | error cause => exact ⟨rfl, rfl⟩
  | ok saved =>
      cases saved with
      | none => exact ⟨rfl, rfl⟩
      | some bytes =>
          dsimp only
          cases Record.decode bytes with
          | error fault => exact ⟨rfl, rfl⟩
          | ok slots => exact ⟨rfl, rfl⟩

theorem save_spec (around : Surroundings) (c : Controller) :
    (c.save around).controller.next = c.next ∧ (c.save around).controller.ringing = c.ringing ∧
      (c.save around).controller.alarms.slots = c.alarms.slots ∧
      (c.save around).commands = [] ∧ (c.save around).wakes = [] := by
  unfold save
  by_cases dirty : c.alarms.dirty = true
  · rw [if_pos dirty]
    cases around.writeFailure with
    | none => exact ⟨rfl, rfl, rfl, rfl, rfl⟩
    | some cause => exact ⟨rfl, rfl, rfl, rfl, rfl⟩
  · rw [if_neg dirty]
    exact ⟨rfl, rfl, rfl, rfl, rfl⟩

end Controller
end AlarmClock
