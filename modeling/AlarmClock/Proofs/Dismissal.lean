import AlarmClock.Proofs.FailedLoad
import AlarmClock.Proofs.Punctual

set_option autoImplicit false

namespace AlarmClock

namespace AlarmSet

theorem enabled_of_slots (set : AlarmSet) (slot : Nat) (alarm : Alarm)
    (present : set.slots.toList[slot]? = some alarm) : set.isEnabled slot = alarm.enabled := by
  rw [Vector.getElem?_toList] at present
  rw [isEnabled, get?, present]
  rfl

theorem switched_off_disabled (set : AlarmSet) (slot : Nat) :
    (set.edit slot (.setEnabled false)).isEnabled slot = false := by
  rw [isEnabled, set.get?_edit_same slot (.setEnabled false) trivial]
  cases set.get? slot with
  | none => rfl
  | some alarm => rfl

theorem edit_enables (set : AlarmSet) (slot other : Nat) (change : Edit) (off : set.isEnabled slot = false)
    (on : (set.edit other change).isEnabled slot = true) : other = slot ∧ change = .setEnabled true := by
  by_cases same : other = slot
  · subst same
    refine ⟨rfl, ?_⟩
    by_cases allowed : change.Allowed
    · rw [isEnabled, set.get?_edit_same other change allowed] at on
      rw [isEnabled] at off
      cases access : set.get? other with
      | none => simp [access] at on
      | some alarm =>
          rw [access] at on off
          change alarm.enabled = false at off
          change (change.apply alarm).enabled = true at on
          cases change with
          | setEnabled value =>
              cases value with
              | true => rfl
              | false => cases on
          | setTime hour minute | setDays days | setDay day value =>
              change alarm.enabled = true at on
              simp [off] at on
    · rw [set.edit_refused other change allowed, off] at on
      cases on
  · rw [isEnabled, set.get?_edit_other other slot change same] at on
    rw [isEnabled] at off
    rw [off] at on
    cases on

theorem default_disabled (slot : Nat) : (⟨defaultSlots, false⟩ : AlarmSet).isEnabled slot = false := by
  by_cases inside : slot < slotCount
  · simp [isEnabled, get?, defaultSlots, inside, Alarm.default]
  · simp [isEnabled, get?, Vector.getElem?_eq_none (Nat.not_lt.mp inside)]

end AlarmSet

namespace Controller

-- Saved alarms become the alarms of the controller.
def Adopts (c : Controller) (e : Event) : Prop :=
  (e.call = .init ∨ e.call = .load ∨ e.call = .reload) ∧ ∃ bytes slots, e.around.saved = .ok (some bytes) ∧
    Record.decode bytes = .ok slots ∧ (c.after e).alarms = ⟨slots, false⟩

theorem enabled_cause (c : Controller) (e : Event) (slot : Nat) (off : c.alarms.isEnabled slot = false)
    (on : (c.after e).alarms.isEnabled slot = true) : e.call = .edit slot (.setEnabled true) ∨ c.Adopts e := by
  have memory := call_recall c e
  unfold Adopts
  generalize (c.after e).alarms = alarms, (c.after e).stored = stored at memory on ⊢
  cases memory with
  | kept | noticed saved read unreadable =>
      rw [off] at on
      cases on
  | edited other change cause =>
      obtain ⟨rfl, rfl⟩ := c.alarms.edit_enables slot other change off on
      exact .inl (cause.resolve_right nofun)
  | adopted bytes slots read decoded cause =>
      refine .inr ⟨?_, bytes, slots, read, decoded, rfl⟩
      rcases cause with loads | ⟨reloads, -⟩
      · exact ((Call.loads_iff e.call).mp loads).elim .inl fun same => .inr (.inl same)
      · exact .inr (.inr reloads)
  | defaulted saved read unreadable =>
      rw [AlarmSet.of_slots_default, AlarmSet.default_disabled] at on
      cases on
  | unread cause fails loads =>
      rw [AlarmSet.of_slots_default, AlarmSet.default_disabled] at on
      cases on
  | saved _ dirty =>
      change c.alarms.isEnabled slot = true at on
      rw [off] at on
      cases on

-- The slot is off, and the timer is not armed for it.
def Dismissed (c : Controller) (slot : Nat) : Prop :=
  c.alarms.isEnabled slot = false ∧ ∀ next, c.next = some next → next.slot ≠ slot

theorem find_next_avoids (alarms : AlarmSet) (now : LocalTime) (slot : Nat) (off : alarms.isEnabled slot = false) :
    ∀ next, findNext alarms.slots.toList now = some next → next.slot ≠ slot := by
  intro next found same
  obtain ⟨alarm, access, on, -⟩ := find_next_slot _ _ next found
  have enabled := (alarms.enabled_of_slots next.slot alarm access).trans on
  rw [same, off] at enabled
  cases enabled

theorem after_dismissed (c : Controller) (e : Event) (slot : Nat) (dismissed : c.Dismissed slot)
    (off : (c.after e).alarms.isEnabled slot = false) : (c.after e).Dismissed slot := by
  refine ⟨off, ?_⟩
  intro next scheduled
  rcases c.plan_step e with ⟨plan, planned, answer⟩ | ⟨-, kept | taken⟩
  · have searched : plan.alarms = (c.after e).alarms.slots := by
      unfold Event.plan? at planned
      by_cases schedules : e.Schedules c
      · rw [if_pos schedules] at planned
        rw [← Option.some.inj planned]
      · rw [if_neg schedules] at planned
        cases planned
    rw [Plan.answer, searched] at answer
    exact find_next_avoids (c.after e).alarms plan.now slot off next (answer.symm.trans scheduled)
  · exact dismissed.2 next (kept.symm.trans scheduled)
  · rw [taken] at scheduled
    cases scheduled

theorem dismissed_silent (c : Controller) (e : Event) (slot : Nat) (dismissed : c.Dismissed slot) :
    slot ∉ (e.outcome c).wakes := by
  intro woken
  obtain ⟨-, next, scheduled, same⟩ := c.woken_is_next e slot woken
  exact dismissed.2 next scheduled same

-- The user is not woken for the slot before a call that switches it on.
def SilentUntilOn (c : Controller) (slot : Nat) (events : List Event) : Prop :=
  slot ∈ c.wakes events → ∃ before e rest, events = before ++ e :: rest ∧ slot ∉ c.wakes (before ++ [e]) ∧
    (c.run (before ++ [e])).alarms.isEnabled slot = true ∧
    (e.call = .edit slot (.setEnabled true) ∨ (c.run before).Adopts e)

theorem dismissed_run (c : Controller) (slot : Nat) (events : List Event) (dismissed : c.Dismissed slot) :
    c.SilentUntilOn slot events := by
  induction events generalizing c with
  | nil => exact fun woken => absurd woken List.not_mem_nil
  | cons e later ih =>
      intro woken
      have silent := c.dismissed_silent e slot dismissed
      by_cases on : (c.after e).alarms.isEnabled slot = true
      · refine ⟨[], e, later, rfl, ?_, on, c.enabled_cause e slot dismissed.1 on⟩
        simpa [wakes] using silent
      · have still := c.after_dismissed e slot dismissed (Bool.eq_false_iff.mpr on)
        have wokenLater : slot ∈ (c.after e).wakes later := (List.mem_append.mp woken).resolve_left silent
        obtain ⟨before, switch, rest, split, quiet, enabled, cause⟩ := ih (c.after e) still wokenLater
        refine ⟨e :: before, switch, rest, by rw [split]; rfl, ?_, enabled, cause⟩
        intro woken
        exact (List.mem_append.mp woken).elim silent quiet

theorem plan_dismisses (around : Surroundings) (c : Controller) (slot : Nat) (off : c.alarms.isEnabled slot = false)
    (succeeds : (c.schedule around).result = .ok ()) :
    ({ c with next := c.planned around } : Controller).Dismissed slot := by
  refine ⟨off, ?_⟩
  intro next scheduled
  rw [schedule_succeeds_iff] at succeeds
  refine find_next_avoids c.alarms around.clock.now slot off next ?_
  change c.soonest around = some next
  change c.planned around = some next at scheduled
  unfold planned at scheduled
  unfold planCommands at succeeds
  cases found : c.soonest around with
  | none => simp [found] at scheduled
  | some other =>
      by_cases fails : around.armFailure.isSome = true
      · simp [found, fails] at succeeds
      · simpa [found, fails] using scheduled

theorem stop_dismisses (around : Surroundings) (c : Controller) (slot : Nat) (rings : c.ringing = some slot)
    (once : (c.alarms.days slot).isOnce = true) (stops : (c.stop around).result = .ok ()) :
    (c.after ⟨around, .stop⟩).Dismissed slot := by
  have course := (c.after_course ⟨around, .stop⟩).1
  simp only [Call.course, rings, Course.controller] at course
  rw [course]
  have off : (c.silenced slot).alarms.isEnabled slot = false := by
    rw [silenced, if_pos once]
    exact c.alarms.switched_off_disabled slot
  refine plan_dismisses around (c.silenced slot) slot off ?_
  rw [silenced, if_pos once]
  rw [stop, rings] at stops
  simp only [once, if_true, Outcome.result_after] at stops
  exact stops

theorem one_shot_rings_once (events later : List Event) (around : Surroundings) (slot : Nat)
    (rings : (initial.run events).ringing = some slot) (once : ((initial.run events).alarms.days slot).isOnce = true)
    (stops : ((initial.run events).stop around).result = .ok ()) :
    let c := (initial.run events).after ⟨around, .stop⟩
    slot ∈ c.wakes later → ∃ before e rest, later = before ++ e :: rest ∧ slot ∉ c.wakes (before ++ [e]) ∧
      (c.run (before ++ [e])).alarms.isEnabled slot = true ∧
      (e.call = .edit slot (.setEnabled true) ∨ (c.run before).Adopts e) :=
  dismissed_run _ slot later ((initial.run events).stop_dismisses around slot rings once stops)

def rungOnce : List Event :=
  [⟨atDawn 6 0 0, .edit 0 (.setEnabled true)⟩, ⟨atDawn 6 0 0, .schedule⟩, ⟨atDawn 7 0 0, .timerExpired⟩]

def switchedOnAgain : List Event :=
  [⟨atDawn 7 1 0, .timerExpired⟩, ⟨atDawn 7 1 0, .triggerNow⟩, ⟨atDawn 7 2 0, .edit 0 (.setEnabled true)⟩,
    ⟨atDawn 7 2 0, .schedule⟩, ⟨atDawn 7 2 0, .triggerNow⟩]

theorem rung_alarm_is_switched_on_first :
    let c := (initial.run rungOnce).after ⟨atDawn 7 0 30, .stop⟩
    (initial.run rungOnce).ringing = some 0 ∧ ((initial.run rungOnce).alarms.days 0).isOnce = true ∧
      ((initial.run rungOnce).stop (atDawn 7 0 30)).result = .ok () ∧ c.wakes switchedOnAgain = [0] ∧
      ∃ before e rest, switchedOnAgain = before ++ e :: rest ∧ 0 ∉ c.wakes (before ++ [e]) ∧
        (e.call = .edit 0 (.setEnabled true) ∨ (c.run before).Adopts e) := by
  have rings : (initial.run rungOnce).ringing = some 0 := by decide +kernel
  have once : ((initial.run rungOnce).alarms.days 0).isOnce = true := by decide +kernel
  have stops : ((initial.run rungOnce).stop (atDawn 7 0 30)).result = .ok () := by decide +kernel
  have woken : ((initial.run rungOnce).after ⟨atDawn 7 0 30, .stop⟩).wakes switchedOnAgain = [0] := by decide +kernel
  obtain ⟨before, e, rest, split, silent, -, cause⟩ := one_shot_rings_once rungOnce switchedOnAgain (atDawn 7 0 30) 0
    rings once stops (by rw [woken]; exact List.mem_singleton_self 0)
  exact ⟨rings, once, stops, woken, before, e, rest, split, silent, cause⟩

end Controller
end AlarmClock
