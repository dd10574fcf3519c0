import AlarmClock.Proofs.Deadline
import AlarmClock.Proofs.Recall
import AlarmClock.Proofs.Stored

set_option autoImplicit false

namespace AlarmClock

namespace Record

inductive Faulty (slot : Nat) : Bytes → DecodeError → Prop where
  | version (tag hour minute days enabled : UInt8) (unknown : tag ≠ 3) :
      Faulty slot [tag, hour, minute, days, enabled] (.unknownVersion slot tag)
  | corrupt (hour minute days enabled : UInt8) (outside : 23 < hour ∨ 59 < minute ∨ 0x7f < days ∨ 1 < enabled) :
      Faulty slot [3, hour, minute, days, enabled] (.corrupt slot)

inductive FirstFault (bytes : Bytes) : DecodeError → Prop where
  | short (short : bytes.length < 20) : FirstFault bytes (.tooShort bytes.length)
  | record (slot : Nat) (fault : DecodeError) (long : 20 ≤ bytes.length) (inside : slot < slotCount)
      (faulty : Faulty slot (recordAt bytes slot) fault)
      (first : ∀ earlier < slot, ∀ other, ¬ Faulty earlier (recordAt bytes earlier) other) : FirstFault bytes fault

theorem in_range_iff (hour minute days enabled : UInt8) :
    (isTimeOfDay hour minute = true ∧ days ≤ Days.daily.bits ∧ enabled ≤ 1) ↔
      ¬ (23 < hour ∨ 59 < minute ∨ 0x7f < days ∨ 1 < enabled) := by
  simp only [isTimeOfDay, Days.daily, Bool.and_eq_true, decide_eq_true_eq, not_or, UInt8.not_lt, and_assoc]

theorem decode_alarm_error_iff (slot : Nat) (tag hour minute days enabled : UInt8) (fault : DecodeError) :
    decodeAlarm slot tag hour minute days enabled = .error fault ↔ Faulty slot [tag, hour, minute, days, enabled] fault := by
  unfold decodeAlarm
  simp only [in_range_iff]
  by_cases known : tag = version
  · rw [if_neg (not_not_intro known), known]
    by_cases outside : 23 < hour ∨ 59 < minute ∨ 0x7f < days ∨ 1 < enabled
    · rw [if_neg (not_not_intro outside), Except.error.injEq]
      constructor
      · rintro rfl
        exact .corrupt hour minute days enabled outside
      · intro faulty
        cases faulty with
        | version _ _ _ _ _ unknown => exact absurd rfl unknown
        | corrupt => rfl
    · rw [if_pos outside]
      refine iff_of_false nofun fun faulty => ?_
      cases faulty with
      | version _ _ _ _ _ unknown => exact unknown rfl
      | corrupt _ _ _ _ other => exact outside other
  · rw [if_pos known, Except.error.injEq]
    constructor
    · rintro rfl
      exact .version tag hour minute days enabled known
    · intro faulty
      cases faulty with
      | version => rfl
      | corrupt => exact absurd rfl known

theorem decode_slot_error_iff (bytes : Bytes) (slot : Nat) (fault : DecodeError) (long : (slot + 1) * recordLength ≤ bytes.length) :
    decodeSlot bytes slot = .error fault ↔ Faulty slot (recordAt bytes slot) fault := by
  have whole : recordLength ≤ (bytes.drop (slot * recordLength)).length := by
    rw [Nat.add_mul] at long
    rw [List.length_drop]
    omega
  unfold decodeSlot recordAt
  generalize bytes.drop (slot * recordLength) = rest at whole
  match rest with
  | tag :: hour :: minute :: days :: enabled :: later => exact decode_alarm_error_iff slot tag hour minute days enabled fault
  | [] | [_] | [_, _] | [_, _, _] | [_, _, _, _] => simp [recordLength] at whole

theorem of_fn_m_error {ε α : Type} {n : Nat} (f : Fin n → Except ε α) (fault : ε) (fails : Vector.ofFnM f = .error fault) :
    ∃ i, f i = .error fault ∧ ∀ j < i, ∃ value, f j = .ok value := by
  induction n with
  | zero =>
      rw [Vector.ofFnM_zero] at fails
      cases fails
  | succ n ih =>
      rw [Vector.ofFnM_succ] at fails
      cases init : Vector.ofFnM fun i : Fin n => f i.castSucc with
      | error other =>
          rw [init] at fails
          obtain rfl : other = fault := Except.error.inj fails
          obtain ⟨i, here, before⟩ := ih (fun i => f i.castSucc) init
          refine ⟨i.castSucc, here, fun j earlier => ?_⟩
          exact before (j.castLT (Nat.lt_trans earlier i.isLt)) earlier
      | ok values =>
          cases last : f (Fin.last n) with
          | error other =>
              rw [init] at fails
              simp only [bind, Except.bind, last] at fails
              obtain rfl : other = fault := Except.error.inj fails
              refine ⟨Fin.last n, last, fun j earlier => ?_⟩
              exact ⟨_, (of_fn_m_iff (fun i => f i.castSucc) values).mp init (j.castLT earlier)⟩
          | ok value =>
              rw [init] at fails
              simp [bind, Except.bind, last, pure, Except.pure] at fails

theorem of_fn_m_error_iff {ε α : Type} {n : Nat} (f : Fin n → Except ε α) (fault : ε) :
    Vector.ofFnM f = .error fault ↔ ∃ i, f i = .error fault ∧ ∀ j < i, ∃ value, f j = .ok value := by
  refine ⟨of_fn_m_error f fault, ?_⟩
  rintro ⟨i, here, before⟩
  cases whole : Vector.ofFnM f with
  | ok values =>
      rw [(of_fn_m_iff f values).mp whole i] at here
      cases here
  | error other =>
      obtain ⟨j, there, earlier⟩ := of_fn_m_error f other whole
      rcases Nat.lt_trichotomy i j with order | same | order
      · obtain ⟨value, fine⟩ := earlier i order
        rw [fine] at here
        cases here
      · obtain rfl := Fin.ext same
        rw [here] at there
        exact congrArg Except.error (Except.error.inj there).symm
      · obtain ⟨value, fine⟩ := before j order
        rw [fine] at there
        cases there

theorem decode_error_iff (bytes : Bytes) (fault : DecodeError) : decode bytes = .error fault ↔ FirstFault bytes fault := by
  unfold decode
  by_cases short : bytes.length < encodedLength
  · rw [if_pos short, Except.error.injEq]
    constructor
    · rintro rfl
      exact .short short
    · intro first
      cases first with
      | short => rfl
      | record slot _ long => exact absurd short (Nat.not_lt.mpr long)
  · have long : encodedLength ≤ bytes.length := Nat.not_lt.mp short
    have faulty : ∀ (slot : Fin slotCount) fault, decodeSlot bytes slot = .error fault ↔ Faulty slot (recordAt bytes slot) fault :=
      fun slot fault => decode_slot_error_iff bytes slot fault (by
        have inside := slot.isLt
        simp only [encodedLength, recordLength, slotCount] at long inside ⊢
        omega)
    have sound : ∀ slot : Fin slotCount, (∃ alarm, decodeSlot bytes slot = .ok alarm) ↔
        ∀ fault, ¬ Faulty slot (recordAt bytes slot) fault := by
      intro slot
      simp only [← faulty]
      cases decodeSlot bytes slot with
      | error fault => simp
      | ok alarm => simp
    rw [if_neg short, of_fn_m_error_iff]
    constructor
    · rintro ⟨slot, here, before⟩
      exact .record slot fault long slot.isLt ((faulty slot fault).mp here) fun earlier order =>
        (sound ⟨earlier, Nat.lt_trans order slot.isLt⟩).mp (before ⟨earlier, Nat.lt_trans order slot.isLt⟩ order)
    · intro first
      cases first with
      | short less => exact absurd less short
      | record slot _ _ inside here before =>
          exact ⟨⟨slot, inside⟩, (faulty ⟨slot, inside⟩ fault).mpr here, fun earlier order =>
            (sound earlier).mpr (before earlier order)⟩

theorem encoded_not_faulty (slot : Nat) (alarm : Alarm) (valid : alarm.Valid) (fault : DecodeError) :
    ¬ Faulty slot (encodeAlarm alarm) fault := by
  intro faulty
  have refused := (decode_alarm_error_iff slot _ _ _ _ _ fault).mpr faulty
  rw [decode_alarm_encode_alarm slot alarm valid] at refused
  cases refused

theorem decode_ok_iff (bytes : Bytes) : (∃ slots, decode bytes = .ok slots) ↔
    20 ≤ bytes.length ∧ ∀ slot < slotCount, ∀ fault, ¬ Faulty slot (recordAt bytes slot) fault := by
  constructor
  · rintro ⟨slots, read⟩
    obtain ⟨long, records⟩ := (decode_iff bytes slots).mp read
    refine ⟨long, fun slot inside fault => ?_⟩
    obtain ⟨valid, record⟩ := records slot inside
    rw [record]
    exact encoded_not_faulty slot slots[slot] valid fault
  · rintro ⟨long, sound⟩
    cases read : decode bytes with
    | ok slots => exact ⟨slots, rfl⟩
    | error fault =>
        cases (decode_error_iff bytes fault).mp read with
        | short short => exact absurd short (Nat.not_lt.mpr long)
        | record slot _ _ inside faulty => exact absurd faulty (sound slot inside fault)

end Record

namespace Controller

variable (around : Surroundings) (c : Controller) (bytes : Bytes) (fault : Record.DecodeError)

theorem load_faulty (read : around.saved = .ok (some bytes)) (faulty : Record.decode bytes = .error fault) :
    c.load around = ⟨(), { c with alarms := ⟨defaultSlots, false⟩, stored := some bytes }, [.log (.savedFaulty fault)]⟩ := by
  simp only [load, read, faulty, AlarmSet.of_slots_default]

theorem reload_faulty (read : around.saved = .ok (some bytes)) (faulty : Record.decode bytes = .error fault) :
    c.reload around = ⟨.ok false, { c with stored := some bytes },
      if c.stored = some bytes then [] else [.log (.changeFaulty fault)]⟩ := by
  by_cases known : c.stored = some bytes
  · rw [c.reload_same around (by rw [read, known]), if_pos known, ← known]
  · simp only [reload, read, faulty, if_neg known, if_neg (Ne.symm known)]

end Controller

theorem TimedController.after_silent (s : TimedController) (e : Event) (calm : e.call ≠ .timerExpired)
    (silent : (e.outcome s.controller).commands = []) : s.after e = ⟨s.controller.after e, s.pending⟩ := by
  have happens : s.Happens e := fun expiry => absurd expiry calm
  rw [after, if_pos happens, if_neg calm, silent]
  rfl

theorem faulty_bytes_are_refused_whole (bytes : Bytes) :
    (∀ fault, Record.decode bytes = .error fault ↔ Record.FirstFault bytes fault) ∧
      ((∃ slots, Record.decode bytes = .ok slots) ↔
        20 ≤ bytes.length ∧ ∀ slot < slotCount, ∀ fault, ¬ Record.Faulty slot (Record.recordAt bytes slot) fault) ∧
      ∀ (s : TimedController) (around : Surroundings) fault, around.saved = .ok (some bytes) →
        Record.decode bytes = .error fault →
          s.after ⟨around, .load⟩ = ⟨{ s.controller with alarms := ⟨defaultSlots, false⟩, stored := some bytes }, s.pending⟩ ∧
            s.after ⟨around, .reload⟩ = ⟨{ s.controller with stored := some bytes }, s.pending⟩ ∧
            (s.controller.reload around).result = .ok false ∧
            (s.controller.load around).effects = [.log (.savedFaulty fault)] ∧
            (s.controller.reload around).effects =
              if s.controller.stored = some bytes then [] else [.log (.changeFaulty fault)] := by
  refine ⟨Record.decode_error_iff bytes, Record.decode_ok_iff bytes, fun s around fault read faulty => ?_⟩
  have load := s.controller.load_faulty around bytes fault read faulty
  have reload := s.controller.reload_faulty around bytes fault read faulty
  have silentLoad : ((s.controller.load around).map fun _ => Reply.done).commands = [] := by
    rw [load]
    rfl
  have silentReload : ((s.controller.reload around).map Reply.ofBool).commands = [] := by
    rw [reload]
    by_cases known : s.controller.stored = some bytes
    · rw [if_pos known]
      rfl
    · rw [if_neg known]
      rfl
  refine ⟨(s.after_silent ⟨around, .load⟩ nofun silentLoad).trans ?_,
    (s.after_silent ⟨around, .reload⟩ nofun silentReload).trans ?_, congrArg Outcome.result reload,
    congrArg Outcome.effects load, congrArg Outcome.effects reload⟩
  · exact congrArg (TimedController.mk · s.pending) (congrArg Outcome.controller load)
  · exact congrArg (TimedController.mk · s.pending) (congrArg Outcome.controller reload)

def mixedRecords : Bytes := [3, 8, 15, 0, 1] ++ [3, 6, 30, 2, 1] ++ [2, 7, 0, 0, 0] ++ [3, 7, 60, 0, 0]

theorem mixed_records_change_nothing :
    let s := TimedController.fresh.run [⟨Controller.tuesdayReading Controller.mondays, .init⟩]
    let around := { Controller.tuesdayReading Controller.mondays with saved := .ok (some mixedRecords) }
    Record.decode mixedRecords = .error (.unknownVersion 2 2) ∧
      s.after ⟨around, .reload⟩ = ⟨{ s.controller with stored := some mixedRecords }, s.pending⟩ ∧
      (s.after ⟨around, .load⟩).controller.alarms = ⟨defaultSlots, false⟩ ∧
      s.controller.alarms = ⟨Controller.mondays, false⟩ ∧ s.pending.isSome = true := by
  intro s around
  have faulty : Record.decode mixedRecords = .error (.unknownVersion 2 2) := by decide +kernel
  obtain ⟨load, reload, -⟩ := (faulty_bytes_are_refused_whole mixedRecords).2.2 s around _ rfl faulty
  exact ⟨faulty, reload, congrArg (fun after => after.controller.alarms) load, by decide +kernel, by decide +kernel⟩

end AlarmClock
