import AlarmClock.Clock
import AlarmClock.Notice

set_option autoImplicit false

namespace AlarmClock

structure Surroundings where
  clock : Clock
  armFailure : Option Failure
  saved : Except FileError (Option Bytes)
  writeFailure : Option FileError

inductive Effect where
  | arm (span : Nat)
  | disarm
  | wake (slot : Nat)
  | write (bytes : Bytes)
  | log (notice : Notice)
deriving DecidableEq

/-- `next` is the alarm the timer is armed for, `ringing` the slot that rings, `stored` the saved bytes as
they were last read or written. -/
structure Controller where
  alarms : AlarmSet
  next : Option NextAlarm
  ringing : Option Nat
  stored : Option Bytes
deriving DecidableEq

structure Outcome (α : Type) where
  result : α
  controller : Controller
  effects : List Effect

namespace Outcome

variable {α β : Type}

def after (earlier : List Effect) (outcome : Outcome α) : Outcome α :=
  { outcome with effects := earlier ++ outcome.effects }

def map (f : α → β) (outcome : Outcome α) : Outcome β :=
  ⟨f outcome.result, outcome.controller, outcome.effects⟩

def andThen (outcome : Outcome (Except Failure α)) (f : Controller → Outcome (Except Failure β)) :
    Outcome (Except Failure β) :=
  match outcome.result with
  | .ok _ => (f outcome.controller).after outcome.effects
  | .error failure => ⟨.error failure, outcome.controller, outcome.effects⟩

@[simp] theorem result_after (earlier : List Effect) (outcome : Outcome α) :
    (outcome.after earlier).result = outcome.result := rfl

@[simp] theorem controller_after (earlier : List Effect) (outcome : Outcome α) :
    (outcome.after earlier).controller = outcome.controller := rfl

@[simp] theorem effects_after (earlier : List Effect) (outcome : Outcome α) :
    (outcome.after earlier).effects = earlier ++ outcome.effects := rfl

@[simp] theorem result_map (f : α → β) (outcome : Outcome α) :
    (outcome.map f).result = f outcome.result := rfl

@[simp] theorem controller_map (f : α → β) (outcome : Outcome α) :
    (outcome.map f).controller = outcome.controller := rfl

@[simp] theorem effects_map (f : α → β) (outcome : Outcome α) :
    (outcome.map f).effects = outcome.effects := rfl

end Outcome

namespace Controller

def initial : Controller := ⟨AlarmSet.empty, none, none, none⟩

def expirySlack : Nat := Span.ofSeconds 1

def schedule (around : Surroundings) (c : Controller) : Outcome (Except Failure Unit) :=
  match findNext c.alarms.slots.toList around.clock.now with
  | none =>
      ⟨.ok (), { c with next := none }, .disarm :: if c.next.isSome then [.log .disarmed] else []⟩
  | some next =>
      match around.armFailure with
      | some failure => ⟨.error failure, c, [.log (.armFailed next.slot failure)]⟩
      | none =>
          let span := around.clock.untilTime next.due
          let notice :=
            if c.next = some next then Notice.rearmed next.slot (Span.seconds span)
            else Notice.scheduled next (Span.seconds span)
          ⟨.ok (), { c with next := some next }, [.arm span, .log notice]⟩

def load (around : Surroundings) (c : Controller) : Outcome Unit :=
  match around.saved with
  | .error cause =>
      ⟨(), { c with alarms := AlarmSet.ofSlots defaultSlots }, [.log (.savedUnreadable cause)]⟩
  | .ok none =>
      ⟨(), { c with alarms := AlarmSet.ofSlots defaultSlots, stored := none }, [.log .nothingSaved]⟩
  | .ok (some bytes) =>
      match Record.decode bytes with
      | .error fault =>
          ⟨(), { c with alarms := AlarmSet.ofSlots defaultSlots, stored := some bytes },
            [.log (.savedFaulty fault)]⟩
      | .ok slots =>
          ⟨(), { c with alarms := AlarmSet.ofSlots slots, stored := some bytes },
            (AlarmSet.replacedNotices slots).map .log⟩

def init (around : Surroundings) (c : Controller) : Outcome (Except Failure Unit) :=
  let loaded := c.load around
  (loaded.controller.schedule around).after loaded.effects

def reload (around : Surroundings) (c : Controller) : Outcome (Except Failure Bool) :=
  match around.saved with
  | .error cause => ⟨.ok false, c, [.log (.changeUncheckable cause)]⟩
  | .ok saved =>
      if saved = c.stored then ⟨.ok false, c, []⟩
      else
        match saved with
        | none => ⟨.ok false, { c with stored := none }, [.log .savedRemoved]⟩
        | some bytes =>
            match Record.decode bytes with
            | .error fault => ⟨.ok false, { c with stored := some bytes }, [.log (.changeFaulty fault)]⟩
            | .ok slots =>
                let notices :=
                  (if c.alarms.dirty then [Notice.editsDropped] else []) ++
                    Notice.reloading :: AlarmSet.replacedNotices slots
                let adopted := { c with alarms := AlarmSet.ofSlots slots, stored := some bytes }
                if c.ringing.isSome then ⟨.ok true, adopted, notices.map .log⟩
                else ((adopted.schedule around).map fun r => r.map fun _ => true).after (notices.map .log)

def save (around : Surroundings) (c : Controller) : Outcome (Except Failure Unit) :=
  if c.alarms.dirty then
    let bytes := Record.encode c.alarms.slots
    match around.writeFailure with
    | some cause => ⟨.error (.storage cause), c, [.write bytes]⟩
    | none =>
        ⟨.ok (), { c with alarms := c.alarms.markClean, stored := some bytes }, [.write bytes, .log .saved]⟩
  else ⟨.ok (), c, [.log .saveNotNeeded]⟩

def ring (slot : Nat) (c : Controller) : Outcome Unit :=
  ⟨(), { c with ringing := some slot }, [.log (.ringing slot), .wake slot]⟩

def triggerNow (c : Controller) : Outcome Unit :=
  if c.ringing.isSome then ⟨(), c, []⟩
  else
    match c.next with
    | none => ⟨(), c, [.log .nothingToTrigger]⟩
    | some next => ({ c with next := none }.ring next.slot).after [.disarm]

def resync (around : Surroundings) (c : Controller) : Outcome (Except Failure Unit) :=
  if c.ringing.isSome then ⟨.ok (), c, []⟩
  else
    match c.next with
    | none => c.schedule around
    | some next =>
        if next.due ≤ around.clock.now then
          (c.triggerNow.map fun _ => .ok ()).after [.log (.overdue next.slot)]
        else c.schedule around

def timerExpired (around : Surroundings) (c : Controller) : Outcome Unit :=
  if c.ringing.isSome then ⟨(), c, [.log .expiredWhileRinging]⟩
  else
    match c.next with
    | none => ⟨(), c, [.log .expiredUnscheduled]⟩
    | some next =>
        -- the timer holds no deadline any more, also if it can not be armed again
        let spent := { c with next := none }
        if expirySlack < around.clock.untilTime next.due then
          let again := spent.schedule around
          let failed := match again.result with
            | .error failure => [Effect.log (.rearmFailed failure)]
            | .ok () => []
          ⟨(), again.controller, .log (.expiredEarly next.slot) :: again.effects ++ failed⟩
        else spent.ring next.slot

def edit (slot : Nat) (change : Edit) (c : Controller) : Outcome Unit :=
  ⟨(), { c with alarms := c.alarms.edit slot change }, (AlarmSet.editNotices slot change).map .log⟩

def stop (around : Surroundings) (c : Controller) : Outcome (Except Failure Unit) :=
  match c.ringing with
  | none => ⟨.ok (), c, []⟩
  | some slot =>
      let silenced := { c with ringing := none }
      let off :=
        if (c.alarms.days slot).isOnce then silenced.edit slot (.setEnabled false)
        else ⟨(), silenced, []⟩
      (off.controller.schedule around).after (off.effects ++ [.log (.stopped slot)])

def disable (slot : Nat) (around : Surroundings) (c : Controller) : Outcome (Except Failure Unit) :=
  if c.alarms.isEnabled slot then
    let off := c.edit slot (.setEnabled false)
    (off.controller.schedule around).after off.effects
  else ⟨.ok (), c, []⟩

inductive Status where
  | idle
  | armed (next : NextAlarm)
  | ringing (slot : Nat)
deriving DecidableEq, Repr

def status (c : Controller) : Status :=
  match c.ringing, c.next with
  | some slot, _ => .ringing slot
  | none, some next => .armed next
  | none, none => .idle

def secondsLeft? (clock : Clock) (c : Controller) : Option Nat :=
  c.next.map fun next => Span.seconds (clock.untilTime next.due)

end Controller
end AlarmClock
