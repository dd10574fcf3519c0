import AlarmClock.Config
import AlarmClock.Line
import AlarmClock.Notice

set_option autoImplicit false

namespace AlarmClock

structure Daemon where
  controller : Controller
  inbox : List Message
  ringingSince : Option Nat
  lastSync : Nat
deriving DecidableEq

structure Turn where
  daemon : Daemon
  lines : List Line
  effects : List Effect
  goesOn : Bool
deriving DecidableEq

namespace Turn

def still (d : Daemon) : Turn := ⟨d, [], [], true⟩

def andThen (turn : Turn) (f : Daemon → Turn) : Turn :=
  if turn.goesOn then
    let next := f turn.daemon
    ⟨next.daemon, turn.lines ++ next.lines, turn.effects ++ next.effects, next.goesOn⟩
  else turn

theorem and_then_still (turn : Turn) : turn.andThen still = turn := by
  obtain ⟨daemon, lines, effects, goesOn⟩ := turn
  cases goesOn <;> simp [andThen, still]

end Turn

namespace Daemon

def pollInterval : Nat := 500000000

def resyncInterval : Nat := Span.ofSeconds 30

def fresh (now : Nat) : Daemon := ⟨Controller.initial, [], none, now⟩

def follow {α : Type} (d : Daemon) (outcome : Outcome α) : Daemon :=
  let posted := outcome.effects.filterMap fun
    | .wake slot => (Listener.mailbox true).post? slot
    | .arm _ | .disarm | .write _ | .log _ => none
  { d with controller := outcome.controller, inbox := d.inbox ++ posted }

def call {α : Type} (d : Daemon) (outcome : Outcome α) (lines : List Line) : Turn :=
  ⟨d.follow outcome, lines, outcome.effects, true⟩

def start (around : Surroundings) (now : Nat) : Except Failure Turn :=
  let outcome := Controller.initial.init around
  match outcome.result with
  | .error failure => .error failure
  | .ok () => .ok ((fresh now).call outcome [Line.ofController around.clock outcome.controller])

def refresh (around : Surroundings) (d : Daemon) : Turn :=
  let outcome := d.controller.reload around
  match outcome.result with
  | .ok true => d.call outcome [Line.ofController around.clock outcome.controller]
  | .ok false | .error _ => d.call outcome []

def handle (config : Config) (around : Surroundings) (now : Nat) (d : Daemon) : Message → Turn
  | .timerExpired => d.call (d.controller.timerExpired around) []
  | .alarmRinging slot =>
      let alarm := (d.controller.alarms.get? slot).getD Alarm.default
      match alarm.timeText? config.timeFormat with
      | some time => ⟨{ d with ringingSince := some now }, [.rings slot time], [], true⟩
      | none => ⟨d, [], [], false⟩
  | .stopRequested => .still d

def isOverdue (config : Config) (now : Nat) (d : Daemon) : Bool :=
  match d.ringingSince with
  | some since => since + Span.ofSeconds config.autoStop ≤ now
  | none => false

def isAskedToStop (received : Option Message) (d : Daemon) : Bool :=
  received == some .stopRequested && d.controller.ringing.isSome

def silence (around : Surroundings) (d : Daemon) : Turn :=
  let quiet := { d with ringingSince := none }
  (quiet.call (d.controller.stop around) []).andThen fun stopped =>
    let saved := stopped.controller.save around
    stopped.call saved [Line.ofController around.clock saved.controller]

def isStranded (d : Daemon) : Bool := d.controller.status == .idle && d.controller.alarms.anyEnabled

def followClock (around : Surroundings) (now : Nat) (d : Daemon) : Turn :=
  if d.lastSync + resyncInterval ≤ now ∨ d.isStranded then
    { d with lastSync := now }.call (d.controller.resync around) []
  else .still d

def conclude (config : Config) (around : Surroundings) (now : Nat) (received : Option Message)
    (d : Daemon) : Turn :=
  if d.isAskedToStop received || d.isOverdue config now then d.silence around else d.followClock around now

def turn (config : Config) (around : Surroundings) (now : Nat) (d : Daemon) : Turn :=
  -- what other processes saved is taken over before the message is worked on
  let received := d.inbox.head?
  (({ d with inbox := d.inbox.tail }.refresh around).andThen fun d =>
    match received with
    | some message => d.handle config around now message
    | none => .still d).andThen fun d => d.conclude config around now received

def isFinished (d : Daemon) : Bool := !d.controller.alarms.anyEnabled && d.controller.ringing.isNone

end Daemon
end AlarmClock
