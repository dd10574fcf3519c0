import AlarmClock.Line

set_option autoImplicit false

namespace AlarmClock

inductive Ending where
  | success
  | misuse
  | noSuchSlot (slot : Nat)
  | failed (failure : Failure)
  | unusableFormat
  | noLog
  | noTime
deriving DecidableEq, Repr

namespace Ending

def exitCode : Ending → Nat
  | .success => 0
  | .noSuchSlot _ | .failed _ => 1
  | .misuse => 2
  | .unusableFormat | .noLog | .noTime => 101

def noSuchSlotText (slot : Nat) : String :=
  "there is no alarm " ++ toString slot ++ ", slots are 0 to " ++ toString (slotCount - 1)

def message? : Ending → Option String
  | .success | .misuse => none
  | .noSuchSlot slot => some (noSuchSlotText slot)
  | .failed failure => some failure.message
  | .unusableFormat => some "the time format can not show times"
  | .noLog => some "there is no place for the log"
  | .noTime => some "the clock can not be read"

end Ending

structure Report where
  lines : List Line
  effects : List Effect
  ending : Ending
deriving DecidableEq

end AlarmClock
