import AlarmClock.Daemon
import AlarmClock.Proofs.Errands
import AlarmClock.Proofs.Stored
import AlarmClock.Proofs.Wakes

set_option autoImplicit false

namespace AlarmClock

namespace Daemon

theorem refresh_spec (around : Surroundings) (d : Daemon) :
    (d.refresh around).daemon.controller = d.controller.after ⟨around, .reload⟩ ∧
      (d.refresh around).effects = (d.controller.reload around).effects ∧ (d.refresh around).goesOn = true := by
  unfold refresh
  dsimp only
  cases (d.controller.reload around).result with
  | error failure => exact ⟨rfl, rfl, rfl⟩
  | ok adopted =>
      cases adopted with
      | true => exact ⟨rfl, rfl, rfl⟩
      | false => exact ⟨rfl, rfl, rfl⟩

theorem turn_asked_to_stop (config : Config) (around : Surroundings) (now : Nat) (d : Daemon) (later : List Message)
    (slot : Nat) (asked : d.inbox = .stopRequested :: later) (ringing : d.controller.ringing = some slot) :
    d.turn config around now =
      ({ d with inbox := later }.refresh around).andThen fun refreshed => refreshed.silence around := by
  obtain ⟨controller, -, goesOn⟩ := refresh_spec around { d with inbox := later }
  have rings := d.controller.ringing_kept ⟨around, .reload⟩ slot nofun ringing
  simp only [turn, asked, List.head?_cons, List.tail_cons]
  generalize { d with inbox := later }.refresh around = refreshed at controller goesOn ⊢
  have stops : refreshed.daemon.isAskedToStop (some .stopRequested) = true := by
    rw [isAskedToStop, controller, rings]
    rfl
  simp only [handle, Turn.and_then_still]
  rw [Turn.andThen, Turn.andThen, if_pos goesOn, if_pos goesOn]
  simp only [conclude, stops, Bool.true_or, if_true]

end Daemon

namespace Interleaving

variable {α : Type}

end Interleaving

def Alarm.switchedOff (alarm : Alarm) : Alarm := { alarm with enabled := false }

theorem Alarm.switched_off_iff (alarm : Alarm) : alarm.switchedOff = alarm ↔ alarm.enabled = false := by
  obtain ⟨hour, minute, days, enabled⟩ := alarm
  simp [switchedOff, eq_comm]

def Alarm.stopped (alarm : Alarm) : Alarm := if alarm.isOneShot then alarm.switchedOff else alarm

theorem Alarm.stopped_iff (alarm : Alarm) :
    alarm.stopped = alarm ↔ alarm.isOneShot = false ∨ alarm.enabled = false := by
  unfold stopped
  by_cases once : alarm.isOneShot = true
  · rw [if_pos once, switched_off_iff]
    simp [once]
  · rw [if_neg once]
    simp [once]

theorem Alarm.stopped_eq (alarm : Alarm) :
    alarm.stopped = { alarm with enabled := alarm.enabled && !alarm.isOneShot } := by
  unfold stopped
  by_cases once : alarm.isOneShot = true
  · simp [once, switchedOff]
  · simp [once]

theorem Alarm.stopped_valid (alarm : Alarm) (valid : alarm.Valid) : alarm.stopped.Valid := by
  unfold stopped
  by_cases once : alarm.isOneShot = true
  · rw [if_pos once]
    exact valid
  · rw [if_neg once]
    exact valid

theorem Controller.stop_alarms (around : Surroundings) (c : Controller) (slot : Nat) (inside : slot < slotCount)
    (rings : c.ringing = some slot) :
    (c.after ⟨around, .stop⟩).alarms =
      ⟨c.alarms.slots.set slot c.alarms.slots[slot].stopped,
        c.alarms.dirty || c.alarms.slots[slot].stopped != c.alarms.slots[slot]⟩ := by
  have days : (c.alarms.days slot).isOnce = c.alarms.slots[slot].isOneShot := by
    rw [AlarmSet.days, AlarmSet.get?, Vector.getElem?_eq_getElem inside]
    rfl
  rw [(c.after_course ⟨around, .stop⟩).1]
  simp only [Call.course, rings, Course.controller]
  unfold silenced Alarm.stopped
  rw [days]
  by_cases once : c.alarms.slots[slot].isOneShot = true
  · rw [if_pos once, if_pos once]
    exact c.alarms.edit_inside slot (.setEnabled false) inside trivial
  · rw [if_neg once, if_neg once, Vector.set_getElem_self, bne_self_eq_false, Bool.or_false]

theorem Controller.stop_revises (around : Surroundings) (c : Controller) (slots : Slots) (slot : Nat)
    (inside : slot < slotCount) (clean : c.alarms = ⟨slots, false⟩) (rings : c.ringing = some slot) :
    (c.after ⟨around, .stop⟩).alarms = AlarmSet.revised slots slot inside slots[slot].stopped := by
  rw [c.stop_alarms around slot inside rings]
  simp only [clean, Bool.false_or]
  rfl

inductive Move where
  | daemonReads (clock : Clock) (armFailure : Option Failure)
  | daemonSaves (clock : Clock) (armFailure : Option Failure)
  | errandReads (clock : Clock)
  | errandSaves

structure Meeting where
  saved : Option Bytes
  daemon : Daemon
  plan : List Bytes

namespace Meeting

def around (clock : Clock) (armFailure : Option Failure) (m : Meeting) : Surroundings :=
  ⟨clock, armFailure, .ok m.saved, none⟩

def follow (turn : Turn) (m : Meeting) : Meeting :=
  { m with daemon := turn.daemon, saved := (turn.effects.filterMap Effect.written?).getLast?.or m.saved }

def step (errand : Errand) (m : Meeting) : Move → Meeting
  | .daemonReads clock armFailure => m.follow (m.daemon.refresh (m.around clock armFailure))
  | .daemonSaves clock armFailure => m.follow (m.daemon.silence (m.around clock armFailure))
  | .errandReads clock => { m with plan := (errand.session (m.around clock none)).writes }
  | .errandSaves => { m with saved := m.plan.getLast?.or m.saved }

def run (errand : Errand) (m : Meeting) (moves : List Move) : Meeting := moves.foldl (step errand) m

theorem run_append (errand : Errand) (m : Meeting) (earlier later : List Move) :
    m.run errand (earlier ++ later) = (m.run errand earlier).run errand later := List.foldl_append

end Meeting

namespace Record

end Record

namespace Meeting

variable (errand : Errand) (readClock saveClock errandClock : Clock) (readFailure saveFailure : Option Failure)
variable (m : Meeting) (slots : Slots) (bytes : Bytes) (i j : Nat) (insideI : i < slotCount) (insideJ : j < slotCount)

def errandMoves : List Move := [.errandReads errandClock, .errandSaves]

-- The two begin: the daemon rings a slot that rings once and has nothing unsaved, the errand is about another slot.
structure Begins : Prop where
  saved : m.saved = some bytes
  decoded : Record.decode bytes = .ok slots
  coherent : m.daemon.controller.Coherent
  clean : m.daemon.controller.alarms.dirty = false
  ringing : m.daemon.controller.ringing = some i
  once : slots[i].isOneShot = true
  different : i ≠ j
  edits : errand.slot? = some j
  wellFormed : errand.WellFormed

variable {errand m slots bytes i j insideI}

def nineAndTenOn (nine ten : Bool) : Slots :=
  #v[⟨9, 0, Days.once, nine⟩, ⟨10, 0, Days.once, ten⟩, Alarm.default, Alarm.default]

def nineAndTen : Slots := nineAndTenOn true true

def oClock (hour : Nat) : Clock := Clock.plain ⟨⟨2024, 1, 2⟩, hour, 0, 0, 0⟩

def reading (hour : Nat) : Surroundings := ⟨oClock hour, none, .ok (some (Record.encode nineAndTen)), none⟩

def after (events : List Event) (saved : Option Bytes) : Meeting :=
  ⟨saved, { Daemon.fresh 0 with controller := Controller.initial.run events }, []⟩

def editor (hour : Nat) : List Move := errandMoves (oClock hour)

end Meeting
end AlarmClock
