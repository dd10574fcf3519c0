import AlarmClock.Command
import AlarmClock.Errand
import AlarmClock.Proofs.Codec
import AlarmClock.Proofs.DayLists
import AlarmClock.Proofs.Recall
import AlarmClock.Proofs.Writes

set_option autoImplicit false

namespace AlarmClock

namespace AlarmSet

def revised (slots : Slots) (slot : Nat) (inside : slot < slotCount) (alarm : Alarm) : AlarmSet :=
  ⟨slots.set slot alarm, alarm != slots[slot]⟩

theorem revised_same (slots : Slots) (slot : Nat) (inside : slot < slotCount) :
    revised slots slot inside slots[slot] = ⟨slots, false⟩ := by
  rw [revised, Vector.set_getElem_self, bne_self_eq_false]

theorem edit_revised (slots : Slots) (slot : Nat) (inside : slot < slotCount) (alarm : Alarm) (change : Edit)
    (allowed : change.Allowed) (adds : change.apply alarm = slots[slot] → alarm = slots[slot]) :
    (revised slots slot inside alarm).edit slot change = revised slots slot inside (change.apply alarm) := by
  rw [edit_inside _ slot change inside allowed]
  simp only [revised, Vector.getElem_set_self, Vector.set_set, AlarmSet.mk.injEq, true_and]
  by_cases same : alarm = slots[slot]
  · rw [same, bne_self_eq_false, Bool.false_or]
  · rw [bne_iff_ne.mpr same, Bool.true_or, bne_iff_ne.mpr fun back => same (adds back)]

theorem edit_saved (slots : Slots) (slot : Nat) (inside : slot < slotCount) (change : Edit) (allowed : change.Allowed) :
    edit ⟨slots, false⟩ slot change = revised slots slot inside (change.apply slots[slot]) := by
  rw [← revised_same slots slot inside]
  exact edit_revised slots slot inside slots[slot] change allowed fun _ => rfl

end AlarmSet

namespace Record

def rewrite (slots : Slots) (slot : Nat) (inside : slot < slotCount) (alarm : Alarm) : List Bytes :=
  if alarm = slots[slot] then [] else [encode (slots.set slot alarm)]

theorem rewrite_decodes (bytes : Bytes) (slots : Slots) (decoded : decode bytes = .ok slots) (slot : Nat)
    (inside : slot < slotCount) (alarm : Alarm) (valid : alarm.Valid) :
    ∃ after, (rewrite slots slot inside alarm).getLast?.or (some bytes) = some after ∧
      decode after = .ok (slots.set slot alarm) := by
  unfold rewrite
  by_cases same : alarm = slots[slot]
  · rw [if_pos same, same, Vector.set_getElem_self]
    exact ⟨bytes, rfl, decoded⟩
  · rw [if_neg same]
    have valids := AlarmSet.set_keeps Alarm.Valid slots slot inside alarm valid (decode_valid bytes slots decoded)
    exact ⟨_, rfl, decode_encode _ valids⟩

theorem loaded_rewrite (saved : Option Bytes) (slot : Nat) (inside : slot < slotCount) (alarm : Alarm)
    (valid : alarm.Valid) :
    loaded ((rewrite (loaded saved) slot inside alarm).getLast?.or saved) = (loaded saved).set slot alarm := by
  unfold rewrite
  by_cases same : alarm = (loaded saved)[slot]
  · rw [if_pos same, same, Vector.set_getElem_self]
    rfl
  · rw [if_neg same]
    have valids := AlarmSet.set_keeps Alarm.Valid (loaded saved) slot inside alarm valid (loaded_valid saved)
    exact loaded_decoded _ _ (decode_encode _ valids)

end Record

theorem Controller.save_revised (around : Surroundings) (c : Controller) (slots : Slots) (slot : Nat)
    (inside : slot < slotCount) (alarm : Alarm) (revised : c.alarms = AlarmSet.revised slots slot inside alarm) :
    (c.save around).writes = Record.rewrite slots slot inside alarm := by
  rw [c.save_writes, revised]
  unfold AlarmSet.revised Record.rewrite
  by_cases same : alarm = slots[slot]
  · simp [same]
  · simp [same]

namespace Errand

def WellFormed : Errand → Prop
  | .set _ hour minute days => isTimeOfDay hour minute = true ∧ ∀ chosen, days = some chosen → chosen.Valid
  | .list | .next | .enable _ | .disable _ => True

end Errand

namespace Command

theorem bind_ok {α β : Type} (first : Except Refusal α) (rest : α → Except Refusal β) (answer : β)
    (read : first >>= rest = .ok answer) : ∃ value, first = .ok value ∧ rest value = .ok answer := by
  cases first with
  | error refusal => cases read
  | ok value => exact ⟨value, rfl, read⟩

def Draft.WellFormed (draft : Draft) : Prop :=
  (∀ hour minute, draft.time = some (hour, minute) → isTimeOfDay hour minute = true) ∧
    ∀ chosen, draft.days = some chosen → chosen.Valid

theorem take_well_formed (draft after : Draft) (word : Word) (wellFormed : draft.WellFormed)
    (taken : draft.take word = .ok after) : after.WellFormed := by
  obtain ⟨slot, time, days⟩ := draft
  obtain ⟨timeOk, daysOk⟩ := wellFormed
  cases word with
  | help => cases taken
  | unknown => cases taken
  | value text =>
      cases slot with
      | none =>
          simp only [Draft.take] at taken
          cases number : readSlot text with
          | error refusal => simp [number, Except.map] at taken
          | ok slot =>
              rw [number] at taken
              obtain rfl := Except.ok.inj taken
              exact ⟨timeOk, daysOk⟩
      | some slot =>
          cases time with
          | some time => cases taken
          | none =>
              simp only [Draft.take] at taken
              cases read : timeOfDay? text.toList with
              | none => simp [read] at taken
              | some time =>
                  rw [read] at taken
                  obtain rfl := Except.ok.inj taken
                  refine ⟨fun hour minute same => ?_, daysOk⟩
                  obtain rfl := Option.some.inj same
                  exact is_time_of_day_of_read text.toList hour minute read
  | flag text =>
      cases days with
      | some days => cases taken
      | none =>
          simp only [Draft.take] at taken
          cases read : Days.parse text with
          | error fault => simp [read] at taken
          | ok days =>
              rw [read] at taken
              obtain rfl := Except.ok.inj taken
              refine ⟨timeOk, fun chosen same => ?_⟩
              obtain rfl := Option.some.inj same
              exact Days.parse_valid text days read

theorem draft_well_formed (words : List Word) (draft after : Draft) (wellFormed : draft.WellFormed)
    (taken : words.foldlM Draft.take draft = .ok after) : after.WellFormed := by
  induction words generalizing draft with
  | nil =>
      obtain rfl := Except.ok.inj taken
      exact wellFormed
  | cons word rest ih =>
      rw [List.foldlM_cons] at taken
      obtain ⟨next, step, later⟩ := bind_ok _ _ after taken
      exact ih next (take_well_formed draft next word wellFormed step) later

theorem parse_set_well_formed (args : List String) (errand : Errand) (read : parseSet args = .ok (.errand errand)) :
    errand.WellFormed := by
  obtain ⟨draft, taken, rest⟩ := bind_ok _ _ _ read
  obtain ⟨made, errands, done⟩ := bind_ok _ _ _ rest
  cases done
  obtain ⟨timeOk, daysOk⟩ := draft_well_formed _ _ draft (by simp [Draft.WellFormed]) taken
  obtain ⟨slot, time, days⟩ := draft
  cases slot with
  | none => cases errands
  | some slot =>
      cases time with
      | none => cases errands
      | some time =>
          cases errands
          exact ⟨timeOk time.1 time.2 rfl, daysOk⟩

theorem parse_slot_only_well_formed (make : Nat → Errand) (simple : ∀ slot, (make slot).WellFormed) (args : List String)
    (errand : Errand) (read : parseSlotOnly make args = .ok (.errand errand)) : errand.WellFormed := by
  obtain ⟨slot, -, rest⟩ := bind_ok _ _ _ read
  cases slot with
  | none => cases rest
  | some slot =>
      cases rest
      exact simple slot

theorem parse_plain_well_formed (command : Command) (simple : ∀ errand, command = .errand errand → errand.WellFormed)
    (args : List String) (errand : Errand) (read : parsePlain command args = .ok (.errand errand)) : errand.WellFormed := by
  obtain ⟨done, -, rest⟩ := bind_ok _ _ _ read
  exact simple errand (Except.ok.inj rest)

theorem parse_init_well_formed (args : List String) (errand : Errand) (read : parseInit args = .ok (.errand errand)) :
    errand.WellFormed := by
  obtain ⟨force, -, rest⟩ := bind_ok _ _ _ read
  cases rest

theorem parser_well_formed (name : String) (parser : List String → Except Refusal Command) (known : parser? name = some parser)
    (args : List String) (errand : Errand) (read : parser args = .ok (.errand errand)) : errand.WellFormed := by
  unfold parser? at known
  split at known
  case h_8 => cases known
  all_goals obtain rfl := Option.some.inj known
  case h_1 => exact parse_init_well_formed args errand read
  case h_2 => exact parse_plain_well_formed (.errand .list) (by rintro _ ⟨⟩; trivial) args errand read
  case h_3 => exact parse_set_well_formed args errand read
  case h_4 => exact parse_slot_only_well_formed .enable (fun _ => trivial) args errand read
  case h_5 => exact parse_slot_only_well_formed .disable (fun _ => trivial) args errand read
  case h_6 => exact parse_plain_well_formed (.errand .next) (by rintro _ ⟨⟩; trivial) args errand read
  case h_7 => exact parse_plain_well_formed .run nofun args errand read

theorem parse_well_formed (args : List String) (errand : Errand) (read : parse args = .ok (.errand errand)) :
    errand.WellFormed := by
  unfold parse at read
  split at read
  · cases read
  · cases read
  · cases known : parser? _ with
    | none =>
        rw [known] at read
        cases read
    | some parser =>
        rw [known] at read
        exact parser_well_formed _ parser known _ errand read

end Command

namespace Errand

def revise (alarm : Alarm) : Errand → Alarm
  | .set _ hour minute days => ⟨hour, minute, days.getD alarm.days, true⟩
  | .enable _ => { alarm with enabled := true }
  | .disable _ => { alarm with enabled := false }
  | .list | .next => alarm

theorem revise_valid (errand : Errand) (alarm : Alarm) (wellFormed : errand.WellFormed) (valid : alarm.Valid) :
    (errand.revise alarm).Valid := by
  cases errand with
  | list | next | enable slot | disable slot => exact valid
  | set slot hour minute days =>
      obtain ⟨time, daysOk⟩ := wellFormed
      have real : hour ≤ 23 ∧ minute ≤ 59 := by simpa [isTimeOfDay] using time
      cases days with
      | none => exact ⟨real, valid.2⟩
      | some chosen => exact ⟨real, daysOk chosen rfl⟩

theorem set_revises (slots : Slots) (slot : Nat) (inside : slot < slotCount) (hour minute : UInt8) (days : Option Days)
    (time : isTimeOfDay hour minute = true) :
    (Edit.setTime hour minute :: (days.map Edit.setDays).toList ++ [Edit.setEnabled true]).foldl
        (fun set change => set.edit slot change) ⟨slots, false⟩ =
      AlarmSet.revised slots slot inside ((Errand.set slot hour minute days).revise slots[slot]) := by
  have timed := AlarmSet.edit_saved slots slot inside (.setTime hour minute) time
  have kept := AlarmSet.edit_revised slots slot inside
  generalize slots[slot] = old at timed kept ⊢
  obtain ⟨oldHour, oldMinute, oldDays, oldEnabled⟩ := old
  cases days with
  | none =>
      change ((AlarmSet.edit ⟨slots, false⟩ slot (.setTime hour minute)).edit slot (.setEnabled true)) = _
      rw [timed, kept _ (.setEnabled true) trivial (by simp +contextual [Edit.apply])]
      rfl
  | some chosen =>
      change (((AlarmSet.edit ⟨slots, false⟩ slot (.setTime hour minute)).edit slot (.setDays chosen)).edit slot
        (.setEnabled true)) = _
      rw [timed, kept _ (.setDays chosen) trivial (by simp +contextual [Edit.apply]),
        kept _ (.setEnabled true) trivial (by simp +contextual [Edit.apply])]
      rfl

theorem disable_revises (around : Surroundings) (slots : Slots) (slot : Nat) (inside : slot < slotCount) (c : Controller)
    (saved : c.alarms = ⟨slots, false⟩) :
    (c.disable slot around).controller.alarms =
      AlarmSet.revised slots slot inside ((Errand.disable slot).revise slots[slot]) := by
  have switch : c.alarms.isEnabled slot = slots[slot].enabled := by
    rw [saved, AlarmSet.isEnabled, AlarmSet.get?, Vector.getElem?_eq_getElem inside]
    rfl
  unfold Controller.disable
  by_cases on : c.alarms.isEnabled slot = true
  · rw [if_pos on]
    simp only [Outcome.controller_after, (Controller.schedule_spec around _).1, Controller.edit, saved]
    exact AlarmSet.edit_saved slots slot inside (.setEnabled false) trivial
  · have same : (Errand.disable slot).revise slots[slot] = slots[slot] := by
      rw [switch, Bool.not_eq_true] at on
      simp only [revise, ← on]
    rw [if_neg on, same, AlarmSet.revised_same]
    exact saved

structure Prepares (outcome : Outcome (Except Failure Unit)) (set : AlarmSet) : Prop where
  done : outcome.result = .ok ()
  silent : outcome.writes = []
  alarms : outcome.controller.alarms = set

theorem Prepares.followed_by (outcome : Outcome (Except Failure Unit)) (set other : AlarmSet)
    (f : Controller → Outcome (Except Failure Unit)) (first : Prepares outcome set)
    (next : Prepares (f outcome.controller) other) : Prepares (outcome.andThen f) other := by
  have goesOn := outcome.and_then_ok f () first.done
  refine ⟨?_, ?_, ?_⟩
  · rw [goesOn]
    exact next.done
  · rw [outcome.writes_and_then f () first.done first.silent]
    exact next.silent
  · rw [goesOn]
    exact next.alarms

theorem schedule_prepares (around : Surroundings) (arms : around.armFailure = none) (c : Controller) (set : AlarmSet)
    (alarms : c.alarms = set) : Prepares (c.schedule around) set := by
  refine ⟨c.schedule_done around arms, c.schedule_writes around, ?_⟩
  rw [(c.schedule_spec around).1]
  exact alarms

theorem init_prepares (around : Surroundings) (arms : around.armFailure = none) (saved : Option Bytes)
    (read : around.saved = .ok saved) : Prepares (Controller.initial.init around) ⟨Record.loaded saved, false⟩ := by
  refine ⟨Controller.schedule_done around _ arms, Controller.initial.call_writes_nothing ⟨around, .init⟩ (by simp), ?_⟩
  simp only [Controller.init, Outcome.controller_after, (Controller.schedule_spec around _).1]
  exact Controller.initial.load_alarms around saved read

theorem amend_prepares (around : Surroundings) (arms : around.armFailure = none) (errand : Errand) (slot : Nat)
    (edits : errand.slot? = some slot) (inside : slot < slotCount) (wellFormed : errand.WellFormed) (slots : Slots)
    (c : Controller) (saved : c.alarms = ⟨slots, false⟩) :
    Prepares (errand.amend around c) (AlarmSet.revised slots slot inside (errand.revise slots[slot])) := by
  cases errand with
  | list => cases edits
  | next => cases edits
  | set slot hour minute days =>
      obtain rfl := Option.some.inj edits
      refine ⟨rfl, logs_write_nothing _, ?_⟩
      simp only [amend, editAll, saved]
      exact set_revises slots slot inside hour minute days wellFormed.1
  | enable slot =>
      obtain rfl := Option.some.inj edits
      refine ⟨rfl, logs_write_nothing _, ?_⟩
      simp only [amend, editAll, saved]
      exact AlarmSet.edit_saved slots slot inside (.setEnabled true) trivial
  | disable slot =>
      obtain rfl := Option.some.inj edits
      refine ⟨?_, c.call_writes_nothing ⟨around, .disable slot⟩ (by simp), disable_revises around slots slot inside c saved⟩
      simp only [amend, Controller.disable]
      by_cases on : c.alarms.isEnabled slot = true
      · rw [if_pos on]
        exact Controller.schedule_done around _ arms
      · rw [if_neg on]

theorem session_prepares (around : Surroundings) (arms : around.armFailure = none) (saved : Option Bytes)
    (read : around.saved = .ok saved) (errand : Errand) (slot : Nat) (edits : errand.slot? = some slot)
    (inside : slot < slotCount) (wellFormed : errand.WellFormed) :
    Prepares (((Controller.initial.init around).andThen (errand.amend around)).andThen fun c => c.schedule around)
      (AlarmSet.revised (Record.loaded saved) slot inside (errand.revise (Record.loaded saved)[slot])) := by
  have loads := init_prepares around arms saved read
  have amends := amend_prepares around arms errand slot edits inside wellFormed (Record.loaded saved) _ loads.alarms
  have amended := Prepares.followed_by _ _ _ _ loads amends
  exact Prepares.followed_by _ _ _ _ amended (schedule_prepares around arms _ _ amended.alarms)

theorem session_writes (around : Surroundings) (arms : around.armFailure = none) (saved : Option Bytes)
    (read : around.saved = .ok saved) (errand : Errand) (slot : Nat) (edits : errand.slot? = some slot)
    (inside : slot < slotCount) (wellFormed : errand.WellFormed) :
    (errand.session around).writes =
      Record.rewrite (Record.loaded saved) slot inside (errand.revise (Record.loaded saved)[slot]) := by
  have ready := session_prepares around arms saved read errand slot edits inside wellFormed
  simp only [session, edits]
  rw [Outcome.writes_and_then _ _ () ready.done ready.silent]
  exact Controller.save_revised around _ _ slot inside _ ready.alarms

theorem session_done (around : Surroundings) (arms : around.armFailure = none) (saves : around.writeFailure = none)
    (saved : Option Bytes) (read : around.saved = .ok saved) (errand : Errand) (slot : Nat)
    (edits : errand.slot? = some slot) (inside : slot < slotCount) (wellFormed : errand.WellFormed) :
    (errand.session around).result = .ok () := by
  have ready := session_prepares around arms saved read errand slot edits inside wellFormed
  simp only [session, edits]
  rw [Outcome.and_then_ok _ _ () ready.done]
  exact Controller.save_done around _ saves

end Errand
end AlarmClock
