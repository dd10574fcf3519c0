import AlarmClock.Proofs.Slots
import Mathlib.Data.List.Induction

set_option autoImplicit false

namespace AlarmClock

theorem Days.set_valid (days : Days) (day : Weekday) (on : Bool) (valid : days.Valid) : (days.set day on).Valid := by
  cases on with
  | true => exact days.insert_valid day valid
  | false => exact days.erase_valid day valid

def Edit.Proper : Edit → Prop
  | .setDays days => days.Valid
  | .setTime _ _ | .setEnabled _ | .setDay _ _ => True

theorem Edit.apply_valid (change : Edit) (alarm : Alarm) (allowed : change.Allowed) (proper : change.Proper)
    (valid : alarm.Valid) : (change.apply alarm).Valid := by
  refine ⟨change.apply_has_time alarm allowed valid.1, ?_⟩
  cases change with
  | setTime hour minute => exact valid.2
  | setEnabled on => exact valid.2
  | setDays days => exact proper
  | setDay day on => exact alarm.days.set_valid day on valid.2

namespace AlarmSet

def Valid (set : AlarmSet) : Prop := ∀ slot (inside : slot < slotCount), set.slots[slot].Valid

theorem valid_edit (set : AlarmSet) (slot : Nat) (change : Edit) (proper : change.Proper) (valid : set.Valid) :
    (set.edit slot change).Valid :=
  set.edit_keeps Alarm.Valid slot change (change.apply_valid · · proper ·) valid

end AlarmSet

instance : (change : Edit) → Decidable change.Proper
  | .setDays days => inferInstanceAs (Decidable days.Valid)
  | .setTime _ _ | .setEnabled _ | .setDay _ _ => inferInstanceAs (Decidable True)

def Call.Proper : Call → Prop
  | .edit _ change => change.Proper
  | .init | .load | .reload | .save | .schedule | .resync | .timerExpired | .triggerNow | .stop | .disable _ => True

instance : (call : Call) → Decidable call.Proper
  | .edit _ change => inferInstanceAs (Decidable change.Proper)
  | .init | .load | .reload | .save | .schedule | .resync | .timerExpired | .triggerNow | .stop | .disable _ =>
      inferInstanceAs (Decidable True)

namespace Controller

theorem after_valid (c : Controller) (e : Event) (proper : e.call.Proper) (valid : c.alarms.Valid) :
    (c.after e).alarms.Valid := by
  have memory := call_recall c e
  generalize (c.after e).alarms = alarms, (c.after e).stored = stored at memory ⊢
  cases memory with
  | kept | noticed saved => exact valid
  | edited slot change cause =>
      apply c.alarms.valid_edit slot change _ valid
      rcases cause with edits | rfl
      · rw [edits] at proper
        exact proper
      · trivial
  | adopted bytes slots _ decoded => exact Record.decode_valid bytes slots decoded
  | defaulted saved | unread cause =>
      rw [AlarmSet.of_slots_default]
      exact AlarmSet.default_slots_valid
  | saved _ dirty => exact valid

theorem run_valid (events : List Event) (proper : ∀ e ∈ events, e.call.Proper) : (initial.run events).alarms.Valid := by
  induction events using List.reverseRecOn with
  | nil => exact AlarmSet.default_slots_valid
  | append_singleton earlier e ih =>
      rw [run_append]
      obtain ⟨before, last⟩ := List.forall_mem_append.mp proper
      exact (initial.run earlier).after_valid e (last e (List.mem_singleton_self e)) (ih before)

end Controller
end AlarmClock
