import AlarmClock.Controller
import AlarmClock.TimeFormat

set_option autoImplicit false

namespace AlarmClock

structure TimeLeft where
  days : Nat
  hours : Nat
  minutes : Nat
  seconds : Nat
deriving DecidableEq, Repr

namespace TimeLeft

def ofSeconds (total : Nat) : TimeLeft :=
  ⟨total / 86400, total % 86400 / 3600, total % 3600 / 60, total % 60⟩

def toSeconds (left : TimeLeft) : Nat :=
  left.days * 86400 + left.hours * 3600 + left.minutes * 60 + left.seconds

def text (left : TimeLeft) : String :=
  s!"{left.days} days {left.hours} hours {left.minutes} minutes {left.seconds} seconds"

theorem to_seconds_of_seconds (total : Nat) : (ofSeconds total).toSeconds = total := by
  simp only [ofSeconds, toSeconds]
  omega

end TimeLeft

inductive Line where
  | usage
  | version
  | wroteConfig (path : String)
  | configExists (path : String)
  | listed (slot : Nat) (time : String) (days : Days) (enabled : Bool)
  | nextAlarm (next : NextAlarm) (left : TimeLeft)
  | isRinging (slot : Nat)
  | noneEnabled
  | rings (slot : Nat) (time : String)
  | nothingToDo
deriving DecidableEq, Repr

def programName : String := "wrist_alarm"
def programVersion : String := "0.1.0"

namespace Line

def labelWidth : Nat := 14

def text : Line → String
  | .usage => "Usage: " ++ programName ++ " [init|list|set|enable|disable|next|run|help]"
  | .version => programName ++ " " ++ programVersion
  | .wroteConfig path => "wrote " ++ path
  | .configExists path => path ++ " already exists, use --force to overwrite it"
  | .listed slot time days enabled =>
      toString slot ++ "  " ++ time ++ "  " ++ padRight ' ' labelWidth days.label ++ " " ++
        (if enabled then "on" else "off")
  | .nextAlarm next left =>
      "next alarm: " ++ toString next.slot ++ " at " ++ next.due.weekday.name ++ " " ++ next.due.date.text ++
        " " ++ next.due.clockText ++ " (in " ++ left.text ++ ")"
  | .isRinging slot => "alarm " ++ toString slot ++ " is ringing"
  | .noneEnabled => "no alarm enabled"
  | .rings slot time =>
      "alarm " ++ toString slot ++ " (" ++ time ++ ") is ringing, press enter to stop it"
  | .nothingToDo => "no alarm enabled, nothing to do"

def rows (line : Line) : List String :=
  (line.text.splitOn "\n").map fun row => if row.endsWith "\r" then (row.dropEnd 1).copy else row

def ofAlarm? (format : String) (slot : Nat) (alarm : Alarm) : Option Line :=
  (alarm.timeText? format).map fun time => .listed slot time alarm.days alarm.enabled

def ofSlots? (format : String) (slots : Slots) : Option (List Line) :=
  slots.toList.zipIdx.mapM fun (alarm, slot) => ofAlarm? format slot alarm

def ofController (clock : Clock) (c : Controller) : Line :=
  match c.status with
  | .armed next => .nextAlarm next (TimeLeft.ofSeconds (Span.seconds (clock.untilTime next.due)))
  | .ringing slot => .isRinging slot
  | .idle => .noneEnabled

end Line
end AlarmClock
