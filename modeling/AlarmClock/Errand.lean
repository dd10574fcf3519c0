import AlarmClock.Command
import AlarmClock.Config
import AlarmClock.Report

set_option autoImplicit false

namespace AlarmClock.Errand

def editAll (slot : Nat) (edits : List Edit) (c : Controller) : Outcome (Except Failure Unit) :=
  ⟨.ok (), { c with alarms := edits.foldl (fun set change => set.edit slot change) c.alarms },
    (edits.flatMap (AlarmSet.editNotices slot)).map .log⟩

def amend (around : Surroundings) (errand : Errand) (c : Controller) : Outcome (Except Failure Unit) :=
  match errand with
  | .list | .next => ⟨.ok (), c, []⟩
  | .set slot hour minute days =>
      editAll slot (.setTime hour minute :: (days.map Edit.setDays).toList ++ [.setEnabled true]) c
  | .enable slot => editAll slot [.setEnabled true] c
  | .disable slot => c.disable slot around

def session (around : Surroundings) (errand : Errand) : Outcome (Except Failure Unit) :=
  let loaded := Controller.initial.init around
  match errand.slot? with
  | none => loaded
  | some _ =>
      ((loaded.andThen (errand.amend around)).andThen fun c => c.schedule around).andThen fun c => c.save around

def lines? (config : Config) (clock : Clock) (c : Controller) : Errand → Option (List Line)
  | .list => Line.ofSlots? config.timeFormat c.alarms.slots
  | .next | .set _ _ _ _ | .enable _ | .disable _ => some [Line.ofController clock c]

def missingSlot? (errand : Errand) : Option Nat := errand.slot?.filter fun slot => slotCount ≤ slot

def perform (config : Config) (around : Surroundings) (errand : Errand) : Report :=
  match errand.missingSlot? with
  | some slot => ⟨[], [], .noSuchSlot slot⟩
  | none =>
      let done := errand.session around
      match done.result with
      | .error failure => ⟨[], done.effects, .failed failure⟩
      | .ok () =>
          match errand.lines? config around.clock done.controller with
          | some lines => ⟨lines, done.effects, .success⟩
          | none => ⟨[], done.effects, .unusableFormat⟩

end AlarmClock.Errand
