import AlarmClock.Controller

set_option autoImplicit false

namespace AlarmClock

structure Device where
  controller : Controller
  clock : WallClock
  armFailure : Option Failure
  saved : Option Bytes
  readFailure : Option FileError
  writeFailure : Option FileError
  listener : Listener
deriving DecidableEq

inductive Action where
  | init
  | load
  | reload
  | save
  | schedule
  | resync
  | timerExpired
  | triggerNow
  | stop
  | disable (slot : Nat)
  | edit (slot : Nat) (change : Edit)
  | setClock (time : DateTime)
  | advance (seconds : Int)
  | setSkew (skew : Nat)
  | failTimer (failure : Option Failure)
  | failStorage (reading writing : Option FileError)
  | put (bytes : Option Bytes)
  | hangUp
deriving DecidableEq

inductive Reply where
  | done
  | answer (yes : Bool)
  | failed (failure : Failure)
deriving DecidableEq, Repr

namespace Reply

def ofUnit : Except Failure Unit → Reply
  | .ok () => .done
  | .error failure => .failed failure

def ofBool : Except Failure Bool → Reply
  | .ok yes => .answer yes
  | .error failure => .failed failure

end Reply

namespace Device

def create (clock : WallClock) (saved : Option Bytes) (listener : Listener) : Device :=
  ⟨Controller.initial, clock, none, saved, none, none, listener⟩

def surroundings (d : Device) : Surroundings where
  clock := d.clock.reading
  armFailure := d.armFailure
  saved := match d.readFailure with
    | some cause => .error cause
    | none => .ok d.saved
  writeFailure := d.writeFailure

def absorb (d : Device) : Effect → Device
  | .write bytes => if d.writeFailure.isSome then d else { d with saved := some bytes }
  | .arm _ | .disarm | .wake _ | .log _ => d

def follow {α : Type} (d : Device) (outcome : Outcome α) : Device :=
  outcome.effects.foldl absorb { d with controller := outcome.controller }

theorem controller_absorb (d : Device) (effect : Effect) : (d.absorb effect).controller = d.controller := by
  cases effect <;> simp only [absorb]
  split <;> rfl

theorem controller_follow {α : Type} (d : Device) (outcome : Outcome α) :
    (d.follow outcome).controller = outcome.controller := by
  have kept : ∀ (effects : List Effect) (e : Device), (effects.foldl absorb e).controller = e.controller := by
    intro effects
    induction effects with
    | nil => intro e; rfl
    | cons effect later ih => intro e; rw [List.foldl_cons, ih, controller_absorb]
  exact kept _ _

def call {α : Type} (d : Device) (reply : α → Reply) (outcome : Outcome α) :
    Reply × Device × List Effect :=
  (reply outcome.result, d.follow outcome, outcome.effects)

def step (d : Device) (action : Action) : Reply × Device × List Effect :=
  let c := d.controller
  let around := d.surroundings
  let changed := fun (after : Device) => (Reply.done, after, ([] : List Effect))
  match action with
  | .init => d.call .ofUnit (c.init around)
  | .load => d.call (fun _ => .done) (c.load around)
  | .reload => d.call .ofBool (c.reload around)
  | .save => d.call .ofUnit (c.save around)
  | .schedule => d.call .ofUnit (c.schedule around)
  | .resync => d.call .ofUnit (c.resync around)
  | .timerExpired => d.call (fun _ => .done) (c.timerExpired around)
  | .triggerNow => d.call (fun _ => .done) c.triggerNow
  | .stop => d.call .ofUnit (c.stop around)
  | .disable slot => d.call .ofUnit (c.disable slot around)
  | .edit slot change => d.call (fun _ => .done) (c.edit slot change)
  | .setClock time => changed { d with clock := d.clock.set time }
  | .advance seconds => changed { d with clock := d.clock.advance seconds }
  | .setSkew skew => changed { d with clock := d.clock.setSkew skew }
  | .failTimer failure => changed { d with armFailure := failure }
  | .failStorage reading writing => changed { d with readFailure := reading, writeFailure := writing }
  | .put bytes => changed { d with saved := bytes }
  | .hangUp =>
      changed { d with
        listener := match d.listener with
          | .mailbox _ => .mailbox false
          | other => other }

def notices (listener : Listener) : Effect → List Notice
  | .log notice => [notice]
  | .wake slot => listener.notices slot
  | .arm _ | .disarm | .write _ => []

end Device
end AlarmClock
