import AlarmClock.Failure
import AlarmClock.LocalTime

set_option autoImplicit false

namespace AlarmClock

inductive TimerCommand where
  | arm (span : Nat)
  | disarm
deriving DecidableEq, Repr

structure TimerThread where
  commands : List TimerCommand
  deadline : Option Nat
  alive : Bool
deriving DecidableEq, Repr

namespace TimerThread

def start : TimerThread := ⟨[], none, true⟩

def clockEnd : Nat := Span.ofSeconds 9223372036854775808

def failure? (timer : TimerThread) : Option Failure :=
  if timer.alive then none else some (.timer "timer thread is gone")

def send (timer : TimerThread) (command : TimerCommand) : Except Failure TimerThread :=
  match timer.failure? with
  | some failure => .error failure
  | none => .ok { timer with commands := timer.commands ++ [command] }

/-- One look of the worker at its queue: it takes the first command, or fires if none waits and the deadline
has come. A deadline that its clock can not hold is the worker's end. The answer is whether it fired. -/
def look (now : Nat) (timer : TimerThread) : TimerThread × Bool :=
  match timer.commands with
  | .arm span :: rest =>
      if now + span < clockEnd then (⟨rest, some (now + span), true⟩, false)
      else (⟨[], none, false⟩, false)
  | .disarm :: rest => (⟨rest, none, true⟩, false)
  | [] =>
      match timer.deadline with
      | some due => if due ≤ now then ({ timer with deadline := none }, true) else (timer, false)
      | none => (timer, false)

def settle (now : Nat) (timer : TimerThread) : TimerThread :=
  timer.commands.foldl (fun t _ => (t.look now).1) timer

def await (now patience : Nat) (timer : TimerThread) : TimerThread × Nat × Bool :=
  let timer := timer.settle now
  match timer.deadline with
  | some due =>
      if due ≤ now + patience then ((timer.look (max now due)).1, max now due, true)
      else (timer, now + patience, false)
  | none => (timer, now + patience, false)

theorem look_fired (now : Nat) (timer : TimerThread) (fired : (timer.look now).2 = true) :
    timer.commands = [] ∧ ∃ due, timer.deadline = some due ∧ due ≤ now := by
  unfold look at fired
  split at fired
  · split at fired <;> simp at fired
  · simp at fired
  · split at fired
    · split at fired
      · exact ⟨by assumption, _, by assumption, by assumption⟩
      · simp at fired
    · simp at fired

end TimerThread
end AlarmClock
