import AlarmClock.Record
import Mathlib.Data.Fin.SuccPred

set_option autoImplicit false

namespace AlarmClock.Record

theorem length_encode_alarm (alarm : Alarm) : (encodeAlarm alarm).length = recordLength := rfl

theorem encode_alarm_injective (a b : Alarm) (same : encodeAlarm a = encodeAlarm b) : a = b := by
  obtain ⟨hour, minute, ⟨bits⟩, enabled⟩ := a
  obtain ⟨otherHour, otherMinute, ⟨otherBits⟩, otherEnabled⟩ := b
  simp only [encodeAlarm, List.cons.injEq, true_and, and_true] at same
  obtain ⟨rfl, rfl, rfl, switch⟩ := same
  cases enabled with
  | true =>
      cases otherEnabled with
      | true => rfl
      | false => simp at switch
  | false =>
      cases otherEnabled with
      | true => simp at switch
      | false => rfl

theorem decode_alarm_iff (slot : Nat) (tag hour minute days enabled : UInt8) (alarm : Alarm) :
    decodeAlarm slot tag hour minute days enabled = .ok alarm ↔
      alarm.Valid ∧ [tag, hour, minute, days, enabled] = encodeAlarm alarm := by
  constructor
  · intro read
    unfold decodeAlarm at read
    by_cases known : tag = version
    · by_cases inRange : isTimeOfDay hour minute = true ∧ days ≤ Days.daily.bits ∧ enabled ≤ 1
      · rw [if_neg (not_not_intro known), if_pos inRange] at read
        obtain rfl := Except.ok.inj read
        obtain ⟨time, dayBits, switch⟩ := inRange
        have daysKept : Days.ofBits days = ⟨days⟩ := Days.of_bits_bits ⟨days⟩ dayBits
        have flag : enabled = if (enabled == 1) = true then 1 else 0 := by
          have bound := UInt8.le_iff_toNat_le.mp switch
          by_cases one : enabled = 1
          · simp [one]
          · have notOne : enabled.toNat ≠ 1 := fun same => one (UInt8.toNat_inj.mp same)
            have zero : enabled = 0 := UInt8.toNat_inj.mp (by simp at bound ⊢; omega)
            simp [zero]
        refine ⟨⟨by simpa [isTimeOfDay, Alarm.HasTime] using time, daysKept ▸ dayBits⟩, ?_⟩
        simp only [encodeAlarm, daysKept, known, ← flag]
      · rw [if_neg (not_not_intro known), if_neg inRange] at read
        cases read
    · rw [if_pos known] at read
      cases read
  · rintro ⟨valid, same⟩
    simp only [encodeAlarm, List.cons.injEq, and_true] at same
    obtain ⟨rfl, rfl, rfl, rfl, rfl⟩ := same
    exact decode_alarm_encode_alarm slot alarm valid

def recordAt (bytes : Bytes) (slot : Nat) : Bytes := (bytes.drop (slot * recordLength)).take recordLength

theorem decode_slot_iff (bytes : Bytes) (slot : Nat) (alarm : Alarm) :
    decodeSlot bytes slot = .ok alarm ↔ alarm.Valid ∧ recordAt bytes slot = encodeAlarm alarm := by
  unfold decodeSlot recordAt
  generalize bytes.drop (slot * recordLength) = rest
  match rest with
  | tag :: hour :: minute :: days :: enabled :: later => exact decode_alarm_iff slot tag hour minute days enabled alarm
  | [] | [_] | [_, _] | [_, _, _] | [_, _, _, _] => simp [encodeAlarm, recordLength]

theorem of_fn_m_iff {ε α : Type} {n : Nat} (f : Fin n → Except ε α) (values : Vector α n) :
    Vector.ofFnM f = .ok values ↔ ∀ i : Fin n, f i = .ok values[i.val] := by
  induction n with
  | zero =>
      have empty : values = #v[] := Vector.eq_empty
      rw [Vector.ofFnM_zero, empty]
      exact iff_of_true rfl fun i => i.elim0
  | succ n ih =>
      obtain ⟨init, last, split⟩ : ∃ init last, values = Vector.push init last := Vector.exists_push
      subst split
      rw [Vector.ofFnM_succ, Fin.forall_fin_succ']
      simp only [Fin.val_castSucc, Fin.val_last, Vector.getElem_push_eq, Vector.getElem_push_lt, Fin.is_lt]
      rw [← ih (fun i => f i.castSucc) init]
      cases Vector.ofFnM fun i : Fin n => f i.castSucc with
      | error fault => simp [bind, Except.bind]
      | ok values =>
          cases f (Fin.last n) with
          | error fault => simp [bind, Except.bind]
          | ok value => simp [bind, Except.bind, pure, Except.pure, Vector.push_eq_push, and_comm]

theorem decode_iff (bytes : Bytes) (slots : Slots) :
    decode bytes = .ok slots ↔ encodedLength ≤ bytes.length ∧
      ∀ slot (inside : slot < slotCount), slots[slot].Valid ∧ recordAt bytes slot = encodeAlarm slots[slot] := by
  unfold decode
  by_cases short : bytes.length < encodedLength
  · rw [if_pos short]
    exact iff_of_false nofun fun long => Nat.not_lt.mpr long.1 short
  · rw [if_neg short, of_fn_m_iff, Fin.forall_iff]
    simp only [decode_slot_iff, Nat.not_lt.mp short, true_and]

theorem record_at_flat_map (alarms : List Alarm) (slot : Nat) (inside : slot < alarms.length) :
    recordAt (alarms.flatMap encodeAlarm) slot = encodeAlarm alarms[slot] := by
  unfold recordAt
  induction alarms generalizing slot with
  | nil => cases inside
  | cons alarm rest ih =>
      rw [List.flatMap_cons]
      cases slot with
      | zero =>
          rw [Nat.zero_mul, List.drop_zero]
          exact List.take_left' (length_encode_alarm alarm)
      | succ slot =>
          rw [Nat.add_mul, Nat.one_mul, Nat.add_comm, ← List.drop_drop, List.drop_left' (length_encode_alarm alarm)]
          exact ih slot (Nat.lt_of_succ_lt_succ inside)

theorem record_at_encode (slots : Slots) (slot : Nat) (inside : slot < slotCount) :
    recordAt (encode slots) slot = encodeAlarm slots[slot] := by
  have inList : slot < slots.toList.length := by rw [Vector.length_toList]; exact inside
  rw [encode, record_at_flat_map _ _ inList, Vector.getElem_toList]

theorem decode_encode (slots : Slots) (valid : ∀ slot (inside : slot < slotCount), slots[slot].Valid) :
    decode (encode slots) = .ok slots :=
  (decode_iff _ _).mpr ⟨Nat.le_of_eq (length_encode slots).symm,
    fun slot inside => ⟨valid slot inside, record_at_encode slots slot inside⟩⟩

theorem decode_valid (bytes : Bytes) (slots : Slots) (read : decode bytes = .ok slots) (slot : Nat)
    (inside : slot < slotCount) : slots[slot].Valid := (((decode_iff bytes slots).mp read).2 slot inside).1

theorem decode_encode_same (slots other : Slots) (read : decode (encode slots) = .ok other) : other = slots := by
  apply Vector.ext
  intro slot inside
  have record := (((decode_iff _ _).mp read).2 slot inside).2
  rw [record_at_encode slots slot inside] at record
  exact encode_alarm_injective _ _ record.symm

theorem of_slots_decoded (bytes : Bytes) (slots : Slots) (read : decode bytes = .ok slots) :
    AlarmSet.ofSlots slots = ⟨slots, false⟩ := by
  apply AlarmSet.of_slots_of_has_time
  intro alarm present
  obtain ⟨slot, inside, rfl⟩ := Vector.getElem_of_mem present
  exact (decode_valid bytes slots read slot inside).1

theorem record_at_zero (bytes : Bytes) : recordAt bytes 0 = bytes.take recordLength := by
  rw [recordAt, Nat.zero_mul, List.drop_zero]

theorem record_at_succ (bytes : Bytes) (slot : Nat) :
    recordAt bytes (slot + 1) = recordAt (bytes.drop recordLength) slot := by
  rw [recordAt, recordAt, List.drop_drop, Nat.add_mul, Nat.one_mul, Nat.add_comm]

theorem records_iff_written (alarms : List Alarm) (bytes : Bytes) (long : alarms.length * recordLength ≤ bytes.length) :
    (∀ slot (inside : slot < alarms.length), recordAt bytes slot = encodeAlarm alarms[slot]) ↔
      bytes.take (alarms.length * recordLength) = alarms.flatMap encodeAlarm := by
  induction alarms generalizing bytes with
  | nil => simp
  | cons alarm rest ih =>
      have total : (alarm :: rest).length * recordLength = recordLength + rest.length * recordLength := by
        rw [List.length_cons, Nat.add_mul, Nat.one_mul, Nat.add_comm]
      rw [total] at long ⊢
      have restLong : rest.length * recordLength ≤ (bytes.drop recordLength).length := by
        rw [List.length_drop]
        omega
      have first : (bytes.take recordLength).length = (encodeAlarm alarm).length := by
        rw [List.length_take, length_encode_alarm]
        omega
      rw [List.take_add, List.flatMap_cons]
      constructor
      · intro records
        have head := records 0 (Nat.zero_lt_succ _)
        have tail := (ih (bytes.drop recordLength) restLong).mp fun slot inside => by
          rw [← record_at_succ]
          exact records (slot + 1) (Nat.succ_lt_succ inside)
        rw [← record_at_zero, tail]
        exact congrArg (· ++ _) head
      · intro written
        obtain ⟨head, tail⟩ := List.append_inj written first
        intro slot inside
        cases slot with
        | zero =>
            rw [record_at_zero]
            exact head
        | succ slot =>
            rw [record_at_succ]
            exact (ih (bytes.drop recordLength) restLong).mpr tail slot (Nat.lt_of_succ_lt_succ inside)

theorem slot_records_iff_written (bytes : Bytes) (slots : Slots) (long : encodedLength ≤ bytes.length) :
    (∀ slot (inside : slot < slotCount), recordAt bytes slot = encodeAlarm slots[slot]) ↔
      bytes.take encodedLength = encode slots := by
  have count : slots.toList.length * recordLength = encodedLength := by
    rw [Vector.length_toList, encodedLength, Nat.mul_comm]
  have chunks := records_iff_written slots.toList bytes (count ▸ long)
  rw [count] at chunks
  rw [encode]
  simpa only [Vector.length_toList, Vector.getElem_toList] using chunks

theorem decode_prefix_iff (bytes : Bytes) (slots : Slots) :
    decode bytes = .ok slots ↔ (∀ slot (inside : slot < slotCount), slots[slot].Valid) ∧
      encodedLength ≤ bytes.length ∧ bytes.take encodedLength = encode slots := by
  rw [decode_iff]
  constructor
  · rintro ⟨long, records⟩
    refine ⟨fun slot inside => (records slot inside).1, long, ?_⟩
    exact (slot_records_iff_written bytes slots long).mp fun slot inside => (records slot inside).2
  · rintro ⟨valid, long, written⟩
    refine ⟨long, fun slot inside => ⟨valid slot inside, ?_⟩⟩
    exact (slot_records_iff_written bytes slots long).mpr written slot inside

theorem decode_accepts_own_format (bytes : Bytes) (slots : Slots) :
    (decode bytes = .ok slots ↔
        (∀ slot (inside : slot < slotCount),
            slots[slot].hour ≤ 23 ∧ slots[slot].minute ≤ 59 ∧ slots[slot].days.bits ≤ 0x7f) ∧
          20 ≤ bytes.length ∧ bytes.take 20 = encode slots) ∧
      ((∀ slot (inside : slot < slotCount), slots[slot].Valid) → decode (encode slots) = .ok slots) ∧
      (decode bytes = .ok slots → encode slots ++ bytes.drop 20 = bytes) ∧
      ∀ other, decode bytes = .ok slots → decode other = .ok slots → bytes.take 20 = other.take 20 := by
  refine ⟨(decode_prefix_iff bytes slots).trans ?_, decode_encode slots, ?_, ?_⟩
  · simp only [Alarm.Valid, Alarm.HasTime, Days.Valid, Days.daily, and_assoc, encodedLength, recordLength, slotCount]
  · intro decoded
    obtain ⟨-, -, written⟩ := (decode_prefix_iff bytes slots).mp decoded
    rw [← written]
    exact List.take_append_drop 20 bytes
  · intro other decoded otherDecoded
    obtain ⟨-, -, written⟩ := (decode_prefix_iff bytes slots).mp decoded
    obtain ⟨-, -, otherWritten⟩ := (decode_prefix_iff other slots).mp otherDecoded
    exact written.trans otherWritten.symm

end AlarmClock.Record
