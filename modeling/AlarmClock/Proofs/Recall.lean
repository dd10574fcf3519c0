import AlarmClock.Proofs.Codec
import AlarmClock.Proofs.Course

set_option autoImplicit false

namespace AlarmClock

def Call.loads : Call → Bool
  | .init | .load => true
  | .reload | .save | .schedule | .resync | .timerExpired | .triggerNow | .stop | .disable _ | .edit _ _ => false

theorem Call.loads_iff (call : Call) : call.loads = true ↔ call = .init ∨ call = .load := by
  cases call <;> simp [loads]

def Unreadable (saved : Option Bytes) : Prop := ∀ bytes slots, saved = some bytes → Record.decode bytes ≠ .ok slots

theorem unreadable_none : Unreadable none := nofun

theorem unreadable_fault (bytes : Bytes) (fault : Record.DecodeError) (faulty : Record.decode bytes = .error fault) :
    Unreadable (some bytes) := by
  intro other slots same decoded
  obtain rfl := Option.some.inj same
  rw [faulty] at decoded
  cases decoded

namespace Record

def loaded (saved : Option Bytes) : Slots := (saved.bind fun bytes => (decode bytes).toOption).getD defaultSlots

theorem loaded_decoded (bytes : Bytes) (slots : Slots) (read : decode bytes = .ok slots) : loaded (some bytes) = slots := by
  simp only [loaded, Option.bind_some, read]
  rfl

theorem loaded_unreadable (saved : Option Bytes) (unreadable : Unreadable saved) : loaded saved = defaultSlots := by
  cases saved with
  | none => rfl
  | some bytes =>
      simp only [loaded, Option.bind_some]
      cases read : decode bytes with
      | error fault => rfl
      | ok slots => exact absurd read (unreadable bytes slots rfl)

theorem loaded_valid (saved : Option Bytes) (slot : Nat) (inside : slot < slotCount) : (loaded saved)[slot].Valid := by
  cases saved with
  | none => exact AlarmSet.default_slots_valid slot inside
  | some bytes =>
      cases read : decode bytes with
      | error fault =>
          rw [loaded_unreadable (some bytes) (unreadable_fault bytes fault read)]
          exact AlarmSet.default_slots_valid slot inside
      | ok slots =>
          rw [loaded_decoded bytes slots read]
          exact decode_valid bytes slots read slot inside

end Record

namespace Controller

theorem load_alarms (around : Surroundings) (c : Controller) (saved : Option Bytes) (read : around.saved = .ok saved) :
    (c.load around).controller.alarms = ⟨Record.loaded saved, false⟩ := by
  simp only [load, read]
  cases saved with
  | none => exact AlarmSet.of_slots_default
  | some bytes =>
      dsimp only
      cases decoded : Record.decode bytes with
      | error fault =>
          rw [Record.loaded_unreadable (some bytes) (unreadable_fault bytes fault decoded)]
          exact AlarmSet.of_slots_default
      | ok slots =>
          rw [Record.loaded_decoded bytes slots decoded]
          exact Record.of_slots_decoded bytes slots decoded

end Controller

inductive Recall (around : Surroundings) (c : Controller) (call : Call) : AlarmSet → Option Bytes → Prop where
  | kept : Recall around c call c.alarms c.stored
  | edited (slot : Nat) (change : Edit) (cause : call = .edit slot change ∨ change = .setEnabled false) :
      Recall around c call (c.alarms.edit slot change) c.stored
  | noticed (saved : Option Bytes) (read : around.saved = .ok saved) (unreadable : Unreadable saved) :
      Recall around c call c.alarms saved
  | adopted (bytes : Bytes) (slots : Slots) (read : around.saved = .ok (some bytes))
      (decoded : Record.decode bytes = .ok slots) (cause : call.loads = true ∨ call = .reload ∧ c.stored ≠ some bytes) :
      Recall around c call ⟨slots, false⟩ (some bytes)
  | defaulted (saved : Option Bytes) (read : around.saved = .ok saved) (unreadable : Unreadable saved) :
      Recall around c call (AlarmSet.ofSlots defaultSlots) saved
  | unread (cause : FileError) (fails : around.saved = .error cause) (loads : call.loads = true) :
      Recall around c call (AlarmSet.ofSlots defaultSlots) c.stored
  | saved (saves : call = .save) (dirty : c.alarms.dirty = true) :
      Recall around c call c.alarms.markClean (some (Record.encode c.alarms.slots))

theorem load_recall (around : Surroundings) (c : Controller) (call : Call) (loads : call.loads = true) :
    Recall around c call (c.load around).controller.alarms (c.load around).controller.stored := by
  unfold Controller.load
  cases read : around.saved with
  | error cause => exact .unread cause read loads
  | ok saved =>
      cases saved with
      | none => exact .defaulted none read unreadable_none
      | some bytes =>
          dsimp only
          cases decoded : Record.decode bytes with
          | error fault => exact .defaulted (some bytes) read (unreadable_fault bytes fault decoded)
          | ok slots =>
              dsimp only
              rw [Record.of_slots_decoded bytes slots decoded]
              exact .adopted bytes slots read decoded (.inl loads)

theorem reload_recall (around : Surroundings) (c : Controller) :
    Recall around c .reload (c.after ⟨around, .reload⟩).alarms (c.after ⟨around, .reload⟩).stored := by
  rw [(c.after_course ⟨around, .reload⟩).1]
  simp only [Call.course, Controller.news?, Controller.notice]
  cases read : around.saved with
  | error cause => exact .kept
  | ok saved =>
      cases saved with
      | none => exact .noticed none read unreadable_none
      | some bytes =>
          by_cases same : some bytes = c.stored
          · simp only [if_pos same, Course.controller]
            rw [same]
            exact .kept
          · simp only [if_neg same]
            cases decoded : Record.decode bytes with
            | error fault => exact .noticed (some bytes) read (unreadable_fault bytes fault decoded)
            | ok slots =>
                have adopts : Recall around c .reload ⟨slots, false⟩ (some bytes) :=
                  .adopted bytes slots read decoded (.inr ⟨rfl, Ne.symm same⟩)
                simp only [Except.toOption, Option.map_some, Controller.adopt, Record.of_slots_decoded bytes slots decoded]
                by_cases ringing : c.ringing.isSome = true
                · rw [if_pos ringing]
                  exact adopts
                · rw [if_neg ringing]
                  exact adopts

theorem save_recall (around : Surroundings) (c : Controller) :
    Recall around c .save (c.save around).controller.alarms (c.save around).controller.stored := by
  unfold Controller.save
  by_cases dirty : c.alarms.dirty = true
  · rw [if_pos dirty]
    cases around.writeFailure with
    | none => exact .saved rfl dirty
    | some cause => exact .kept
  · rw [if_neg dirty]
    exact .kept

theorem stop_recall (around : Surroundings) (c : Controller) :
    Recall around c .stop (c.after ⟨around, .stop⟩).alarms (c.after ⟨around, .stop⟩).stored := by
  rw [(c.after_course ⟨around, .stop⟩).1]
  simp only [Call.course]
  cases c.ringing with
  | none => exact .kept
  | some slot =>
      dsimp only [Controller.silenced]
      by_cases once : (c.alarms.days slot).isOnce = true
      · rw [if_pos once]
        exact .edited slot (.setEnabled false) (.inr rfl)
      · rw [if_neg once]
        exact .kept

theorem call_recall (c : Controller) (e : Event) : Recall e.around c e.call (c.after e).alarms (c.after e).stored := by
  obtain ⟨around, call⟩ := e
  have course := (c.after_course ⟨around, call⟩).1
  cases call with
  | init =>
      rw [course]
      exact load_recall around c .init rfl
  | load => exact load_recall around c .load rfl
  | reload => exact reload_recall around c
  | save => exact save_recall around c
  | schedule =>
      rw [course]
      exact .kept
  | resync =>
      rw [course]
      simp only [Call.course]
      cases c.ringing with
      | some slot => exact .kept
      | none =>
          cases c.next with
          | none => exact .kept
          | some next =>
              by_cases overdue : next.due ≤ around.clock.now
              · simp only [if_pos overdue]
                exact .kept
              · simp only [if_neg overdue]
                exact .kept
  | timerExpired =>
      rw [course]
      simp only [Call.course]
      cases c.ringing with
      | some slot => exact .kept
      | none =>
          cases c.next with
          | none => exact .kept
          | some next =>
              by_cases early : Controller.expirySlack < around.clock.untilTime next.due
              · simp only [if_pos early]
                exact .kept
              · simp only [if_neg early]
                exact .kept
  | triggerNow =>
      rw [course]
      simp only [Call.course]
      cases c.ringing with
      | some slot => exact .kept
      | none =>
          cases c.next with
          | none => exact .kept
          | some next => exact .kept
  | stop => exact stop_recall around c
  | disable slot =>
      rw [course]
      simp only [Call.course]
      by_cases on : c.alarms.isEnabled slot = true
      · rw [if_pos on]
        exact .edited slot (.setEnabled false) (.inr rfl)
      · rw [if_neg on]
        exact .kept
  | edit slot change => exact .edited slot change (.inl rfl)

end AlarmClock
