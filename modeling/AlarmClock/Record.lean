import AlarmClock.AlarmSet

set_option autoImplicit false

namespace AlarmClock

abbrev Bytes := List UInt8

namespace Record

def region : String := "alarms.dat"

def version : UInt8 := 3
def recordLength : Nat := 5
def encodedLength : Nat := recordLength * slotCount

inductive DecodeError where
  | tooShort (length : Nat)
  | unknownVersion (slot : Nat) (version : UInt8)
  | corrupt (slot : Nat)
deriving DecidableEq, Repr

def DecodeError.message : DecodeError → String
  | .tooShort length => s!"saved alarms are {length} bytes, expected {encodedLength}"
  | .unknownVersion slot version => s!"alarm slot {slot} has unknown format version {version}"
  | .corrupt slot => s!"alarm slot {slot} is corrupt"

def encodeAlarm (alarm : Alarm) : Bytes :=
  [version, alarm.hour, alarm.minute, alarm.days.bits, if alarm.enabled then 1 else 0]

def encode (slots : Slots) : Bytes := slots.toList.flatMap encodeAlarm

def decodeAlarm (slot : Nat) (tag hour minute days enabled : UInt8) : Except DecodeError Alarm :=
  if tag ≠ version then .error (.unknownVersion slot tag)
  else if isTimeOfDay hour minute ∧ days ≤ Days.daily.bits ∧ enabled ≤ 1 then
    .ok ⟨hour, minute, Days.ofBits days, enabled == 1⟩
  else .error (.corrupt slot)

def decodeSlot (bytes : Bytes) (slot : Nat) : Except DecodeError Alarm :=
  match bytes.drop (slot * recordLength) with
  | tag :: hour :: minute :: days :: enabled :: _ => decodeAlarm slot tag hour minute days enabled
  | _ => .error (.tooShort bytes.length)

def decode (bytes : Bytes) : Except DecodeError Slots :=
  if bytes.length < encodedLength then .error (.tooShort bytes.length)
  else Vector.ofFnM fun slot : Fin slotCount => decodeSlot bytes slot

theorem decode_alarm_encode_alarm (slot : Nat) (alarm : Alarm) (valid : alarm.Valid) :
    decodeAlarm slot version alarm.hour alarm.minute alarm.days.bits (if alarm.enabled then 1 else 0) =
      .ok alarm := by
  obtain ⟨hour, minute, days, enabled⟩ := alarm
  obtain ⟨⟨hours, minutes⟩, dayBits⟩ := valid
  simp only [Days.Valid] at hours minutes dayBits
  cases enabled <;>
    simp [decodeAlarm, isTimeOfDay, hours, minutes, dayBits, Days.of_bits_bits days dayBits]

theorem length_encode (slots : Slots) : (encode slots).length = encodedLength := by
  simp only [encode, List.length_flatMap, encodeAlarm, List.length_cons, List.length_nil]
  simp only [List.map_const', List.sum_replicate_nat, Vector.length_toList, encodedLength, recordLength]
  omega

end Record
end AlarmClock
