import AlarmClock.Failure
import AlarmClock.Record
import AlarmClock.Schedule

set_option autoImplicit false

namespace AlarmClock

inductive Level where
  | debug | info | warn
deriving DecidableEq, Repr

def Level.name : Level → String
  | .debug => "DEBUG"
  | .info => "INFO"
  | .warn => "WARN"

inductive Notice where
  | noSuchSlot (slot : Nat)
  | timeRefused (slot : Nat) (hour minute : UInt8)
  | recordReplaced (slot : Nat) (hour minute : UInt8)
  | nothingSaved
  | savedUnreadable (cause : FileError)
  | savedFaulty (fault : Record.DecodeError)
  | changeUncheckable (cause : FileError)
  | changeFaulty (fault : Record.DecodeError)
  | savedRemoved
  | editsDropped
  | reloading
  | saveNotNeeded
  | saved
  | disarmed
  | armFailed (slot : Nat) (failure : Failure)
  | rearmFailed (failure : Failure)
  | rearmed (slot seconds : Nat)
  | scheduled (next : NextAlarm) (seconds : Nat)
  | overdue (slot : Nat)
  | expiredWhileRinging
  | expiredUnscheduled
  | expiredEarly (slot : Nat)
  | nothingToTrigger
  | ringing (slot : Nat)
  | stopped (slot : Nat)
  | nobodyListening (slot : Nat)
  | woken (slot : Nat)
deriving DecidableEq, Repr

namespace Notice

def level : Notice → Level
  | .noSuchSlot _ | .changeUncheckable _ | .savedRemoved | .saveNotNeeded | .rearmed _ _
  | .expiredWhileRinging | .expiredUnscheduled | .expiredEarly _ | .nothingToTrigger => .debug
  | .nothingSaved | .reloading | .saved | .disarmed | .scheduled _ _ | .ringing _ | .stopped _
  | .woken _ => .info
  | .timeRefused _ _ _ | .recordReplaced _ _ _ | .savedUnreadable _ | .savedFaulty _ | .changeFaulty _
  | .editsDropped | .armFailed _ _ | .rearmFailed _ | .overdue _ | .nobodyListening _ => .warn

def timeText (hour minute : UInt8) : String := toString hour ++ ":" ++ twoDigits minute.toNat

def text : Notice → String
  | .noSuchSlot slot => s!"ignoring edit of alarm slot {slot}, only {slotCount} slots"
  | .timeRefused slot hour minute =>
      s!"ignoring invalid alarm time {timeText hour minute} for slot {slot}"
  | .recordReplaced slot hour minute =>
      s!"alarm slot {slot} has invalid time {timeText hour minute}, using the default"
  | .nothingSaved => "no saved alarms, using defaults"
  | .savedUnreadable cause => s!"couldn't read saved alarms ({cause.message}), using defaults"
  | .savedFaulty fault => s!"{fault.message}, using default alarms"
  | .changeUncheckable cause => s!"couldn't check saved alarms: {cause.message}"
  | .changeFaulty fault => s!"ignoring changed saved alarms: {fault.message}"
  | .savedRemoved => "saved alarms were removed, keeping the current ones"
  | .editsDropped => "saved alarms changed, dropping unsaved edits"
  | .reloading => "saved alarms changed, reloading"
  | .saveNotNeeded => "alarms unchanged, not saving"
  | .saved => "alarms saved"
  | .disarmed => "no alarm enabled, timer disarmed"
  | .armFailed slot failure => s!"couldn't arm timer for alarm {slot}: {failure.message}"
  | .rearmFailed failure => failure.message
  | .rearmed slot seconds => s!"alarm {slot} re-armed (in {seconds}s)"
  | .scheduled next seconds => s!"alarm {next.slot} scheduled for {next.due.text} (in {seconds}s)"
  | .overdue slot => s!"alarm {slot} is overdue, ringing it now"
  | .expiredWhileRinging => "timer expired while already alerting, ignored"
  | .expiredUnscheduled => "timer expired with nothing scheduled, ignored"
  | .expiredEarly slot => s!"timer expired before alarm {slot} is due, re-arming"
  | .nothingToTrigger => "nothing scheduled to trigger"
  | .ringing slot => s!"alarm {slot} alerting"
  | .stopped slot => s!"alarm {slot} stopped"
  | .nobodyListening slot => s!"nobody is listening for alarm {slot}"
  | .woken slot => s!"alarm {slot} ringing"

def line (notice : Notice) : String := notice.level.name ++ " " ++ notice.text

end Notice

def AlarmSet.editNotices (slot : Nat) (change : Edit) : List Notice :=
  match change with
  | .setTime hour minute =>
      if ¬ change.Allowed then [.timeRefused slot hour minute]
      else if slot < slotCount then [] else [.noSuchSlot slot]
  | .setEnabled _ | .setDays _ | .setDay _ _ => if slot < slotCount then [] else [.noSuchSlot slot]

def AlarmSet.replacedNotices (slots : Slots) : List Notice :=
  (slots.toList.zipIdx.filter fun (alarm, _) => !decide alarm.HasTime).map fun (alarm, slot) =>
    .recordReplaced slot alarm.hour alarm.minute

inductive Message where
  | timerExpired
  | alarmRinging (slot : Nat)
  | stopRequested
deriving DecidableEq, Repr

inductive Listener where
  | user
  | mailbox (isOpen : Bool)
  | logbook
deriving DecidableEq, Repr

namespace Listener

def post? : Listener → Nat → Option Message
  | .mailbox true, slot => some (.alarmRinging slot)
  | _, _ => none

def notices : Listener → Nat → List Notice
  | .user, _ | .mailbox true, _ => []
  | .mailbox false, slot => [.nobodyListening slot]
  | .logbook, slot => [.woken slot]

end Listener

end AlarmClock
