import AlarmClock.Alarm
import AlarmClock.LocalTime

set_option autoImplicit false

namespace AlarmClock.TimeFormat

structure TimeOfDay where
  second : Nat
  nanos : Nat
deriving DecidableEq, Repr

inductive Pad where
  | none | zero | space
deriving DecidableEq, Repr

inductive Number where
  | hour | hour12 | minute | second | nanosecond
deriving DecidableEq, Repr

inductive Item where
  | literal (text : String)
  | number (kind : Number) (pad : Pad)
  | half (upper : Bool)
  | fraction (dot : Bool) (digits : Nat)
  | shortFraction
deriving DecidableEq, Repr

def Number.width : Number → Nat
  | .hour | .hour12 | .minute | .second => 2
  | .nanosecond => 9

def Number.value (time : TimeOfDay) : Number → Nat
  | .hour => time.second / 3600
  | .hour12 => (time.second / 3600 + 11) % 12 + 1
  | .minute => time.second / 60 % 60
  | .second => time.second % 60
  | .nanosecond => time.nanos

def Item.text (time : TimeOfDay) : Item → String
  | .literal text => text
  | .number kind .none => toString (kind.value time)
  | .number kind .zero => padLeft '0' kind.width (toString (kind.value time))
  | .number kind .space => padLeft ' ' kind.width (toString (kind.value time))
  | .half upper =>
      match decide (12 ≤ time.second / 3600), upper with
      | false, false => "am"
      | false, true => "AM"
      | true, false => "pm"
      | true, true => "PM"
  | .fraction dot digits =>
      (if dot then "." else "") ++ zeroPadded digits (time.nanos / Nat.pow 10 (9 - digits))
  | .shortFraction => LocalTime.fractionText time.nanos

def number? : Char → Option (Number × Pad)
  | 'H' => some (.hour, .zero)
  | 'k' => some (.hour, .space)
  | 'I' => some (.hour12, .zero)
  | 'l' => some (.hour12, .space)
  | 'M' => some (.minute, .zero)
  | 'S' => some (.second, .zero)
  | 'f' => some (.nanosecond, .zero)
  | _ => none

def colon : Item := .literal ":"
def hourMinute : List Item := [.number .hour .zero, colon, .number .minute .zero]
def hourMinuteSecond : List Item := hourMinute ++ [colon, .number .second .zero]

def specifier? : Char → Option (List Item)
  | '%' => some [.literal "%"]
  | 'n' => some [.literal "\n"]
  | 't' => some [.literal "\t"]
  | 'p' => some [.half true]
  | 'P' => some [.half false]
  | 'R' => some hourMinute
  | 'T' | 'X' => some hourMinuteSecond
  | 'r' =>
      some [.number .hour12 .zero, colon, .number .minute .zero, colon, .number .second .zero,
        .literal " ", .half true]
  | c => (number? c).map fun (kind, pad) => [.number kind pad]

def padded? (pad : Pad) (c : Char) : Option (List Item) :=
  (number? c).map fun (kind, _) => [.number kind pad]

def items? : List Char → Option (List Item)
  | [] => some []
  | '%' :: '-' :: c :: rest => do some ((← padded? .none c) ++ (← items? rest))
  | '%' :: '0' :: c :: rest => do some ((← padded? .zero c) ++ (← items? rest))
  | '%' :: '_' :: c :: rest => do some ((← padded? .space c) ++ (← items? rest))
  | '%' :: '.' :: 'f' :: rest => do some (.shortFraction :: (← items? rest))
  | '%' :: '.' :: '3' :: 'f' :: rest => do some (.fraction true 3 :: (← items? rest))
  | '%' :: '.' :: '6' :: 'f' :: rest => do some (.fraction true 6 :: (← items? rest))
  | '%' :: '.' :: '9' :: 'f' :: rest => do some (.fraction true 9 :: (← items? rest))
  | '%' :: '3' :: 'f' :: rest => do some (.fraction false 3 :: (← items? rest))
  | '%' :: '6' :: 'f' :: rest => do some (.fraction false 6 :: (← items? rest))
  | '%' :: '9' :: 'f' :: rest => do some (.fraction false 9 :: (← items? rest))
  | '%' :: c :: rest => do some ((← specifier? c) ++ (← items? rest))
  | ['%'] => none
  | c :: rest => do some (.literal c.toString :: (← items? rest))

def render? (format : String) (time : TimeOfDay) : Option String :=
  (items? format.toList).map fun items => String.join (items.map (Item.text time))

end AlarmClock.TimeFormat

namespace AlarmClock

def Alarm.timeText? (format : String) (alarm : Alarm) : Option String :=
  TimeFormat.render? format ⟨alarm.secondOfDay, 0⟩

end AlarmClock
