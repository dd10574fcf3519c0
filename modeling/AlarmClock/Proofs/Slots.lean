import AlarmClock.Proofs.Recall

set_option autoImplicit false

namespace AlarmClock

namespace AlarmSet

def Timed (set : AlarmSet) : Prop := ∀ alarm ∈ set.slots.toList, alarm.HasTime

theorem timed_iff (set : AlarmSet) : set.Timed ↔ ∀ slot (inside : slot < slotCount), set.slots[slot].HasTime := by
  constructor
  · intro timed slot inside
    exact timed _ (Vector.mem_toList_iff.mpr (Vector.getElem_mem inside))
  · intro timed alarm present
    obtain ⟨slot, inside, rfl⟩ := Vector.getElem_of_mem (Vector.mem_toList_iff.mp present)
    exact timed slot inside

theorem timed_empty : empty.Timed := by
  rw [timed_iff]
  intro slot inside
  exact (default_slots_valid slot inside).1

theorem timed_of_slots (slots : Slots) : (ofSlots slots).Timed := by
  rw [timed_iff]
  intro slot inside
  rw [ofSlots, Vector.getElem_map]
  by_cases time : slots[slot].HasTime
  · rw [if_pos time]
    exact time
  · rw [if_neg time]
    exact Alarm.default_valid.1

theorem edit_keeps (holds : Alarm → Prop) (set : AlarmSet) (slot : Nat) (change : Edit)
    (keeps : ∀ alarm, change.Allowed → holds alarm → holds (change.apply alarm))
    (before : ∀ other (inside : other < slotCount), holds set.slots[other]) (other : Nat) (inside : other < slotCount) :
    holds (set.edit slot change).slots[other] := by
  by_cases slotInside : slot < slotCount
  · by_cases allowed : change.Allowed
    · rw [set.edit_inside slot change slotInside allowed]
      exact set_keeps holds set.slots slot slotInside _ (keeps _ allowed (before slot slotInside)) before other inside
    · rw [set.edit_refused slot change allowed]
      exact before other inside
  · rw [set.edit_outside slot change (Nat.not_lt.mp slotInside)]
    exact before other inside

theorem timed_edit (set : AlarmSet) (slot : Nat) (change : Edit) (timed : set.Timed) : (set.edit slot change).Timed := by
  rw [timed_iff] at timed ⊢
  exact set.edit_keeps Alarm.HasTime slot change (change.apply_has_time · · ·) timed

end AlarmSet

def Course.alarms (c : Controller) : Course → AlarmSet
  | .keeps after => after.alarms
  | .plans prepared => prepared.alarms
  | .rings _ _ => c.alarms

inductive Heirs (alarms : AlarmSet) : AlarmSet → Prop where
  | kept (heirs : AlarmSet) (same : heirs.slots = alarms.slots) : Heirs alarms heirs
  | edited (slot : Nat) (change : Edit) : Heirs alarms (alarms.edit slot change)
  | replaced (slots : Slots) : Heirs alarms (AlarmSet.ofSlots slots)

theorem Heirs.timed (alarms heirs : AlarmSet) (inherit : Heirs alarms heirs) (timed : alarms.Timed) : heirs.Timed := by
  cases inherit with
  | kept _ same =>
      unfold AlarmSet.Timed at timed ⊢
      rw [same]
      exact timed
  | edited slot change => exact alarms.timed_edit slot change timed
  | replaced slots => exact AlarmSet.timed_of_slots slots

theorem timer_expired_alarms (around : Surroundings) (c : Controller) :
    ((Call.timerExpired.course around c).alarms c) = c.alarms := by
  simp only [Call.course]
  cases c.ringing with
  | some slot => rfl
  | none =>
      cases c.next with
      | none => rfl
      | some next =>
          by_cases early : Controller.expirySlack < around.clock.untilTime next.due
          · simp only [if_pos early]
            rfl
          · simp only [if_neg early]
            rfl

theorem call_alarms (c : Controller) (e : Event) : Heirs c.alarms (c.after e).alarms := by
  have memory := call_recall c e
  generalize (c.after e).alarms = alarms, (c.after e).stored = stored at memory ⊢
  cases memory with
  | kept => exact .kept c.alarms rfl
  | edited slot change => exact .edited slot change
  | noticed saved => exact .kept c.alarms rfl
  | adopted bytes slots _ decoded =>
      rw [← Record.of_slots_decoded bytes slots decoded]
      exact .replaced slots
  | defaulted saved => exact .replaced defaultSlots
  | unread cause => exact .replaced defaultSlots
  | saved _ dirty => exact .kept c.alarms.markClean rfl

theorem Controller.after_timed (c : Controller) (e : Event) (timed : c.alarms.Timed) : (c.after e).alarms.Timed :=
  Heirs.timed c.alarms _ (call_alarms c e) timed

theorem Controller.run_timed (c : Controller) (events : List Event) (timed : c.alarms.Timed) :
    (c.run events).alarms.Timed := by
  induction events generalizing c with
  | nil => exact timed
  | cons e later ih => exact ih (c.after e) (c.after_timed e timed)

def Call.amends : Call → Bool
  | .load | .edit _ _ => true
  | .init | .reload | .save | .schedule | .resync | .timerExpired | .triggerNow | .stop | .disable _ => false

theorem quiet_keeps_slots (around : Surroundings) (c after : Controller) (call : Call) (amendsNot : call.amends = false)
    (quiet : c.ringing = none) (keeps : call.course around c = .keeps after) : after.alarms.slots = c.alarms.slots := by
  cases call with
  | init => cases keeps
  | load | edit slot change => cases amendsNot
  | reload =>
      simp only [Call.course, quiet] at keeps
      cases news : c.news? around with
      | none =>
          obtain rfl : c.notice around = after := by simpa [news] using keeps
          unfold Controller.notice
          cases around.saved with
          | error cause => rfl
          | ok saved => rfl
      | some taken => simp [news] at keeps
  | save =>
      obtain ⟨-, -, same, -⟩ := c.save_spec around
      obtain rfl := Course.keeps.inj keeps
      exact same
  | schedule => cases keeps
  | resync => exact absurd keeps (resync_acts around c after quiet)
  | timerExpired =>
      have same := timer_expired_alarms around c
      rw [keeps] at same
      exact congrArg AlarmSet.slots same
  | triggerNow =>
      simp only [Call.course, quiet] at keeps
      cases scheduled : c.next with
      | none =>
          obtain rfl : c = after := by simpa [scheduled] using keeps
          rfl
      | some next => simp [scheduled] at keeps
  | stop =>
      obtain rfl : c = after := by simpa [Call.course, quiet] using keeps
      rfl
  | disable slot =>
      by_cases on : c.alarms.isEnabled slot = true
      · simp [Call.course, on] at keeps
      · obtain rfl : c = after := by simpa [Call.course, on] using keeps
        rfl

end AlarmClock
