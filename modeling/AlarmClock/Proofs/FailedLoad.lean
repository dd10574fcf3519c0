import AlarmClock.Proofs.Stored

set_option autoImplicit false

namespace AlarmClock.Controller

def StaysClean (c : Controller) : List Event → Prop
  | [] => True
  | e :: later => (c.after e).alarms.dirty = false ∧ (c.after e).StaysClean later

-- The call finds these bytes saved. Reading may fail for a call that does not load.
def Finds (bytes : Bytes) (e : Event) : Prop :=
  e.around.saved = .ok (some bytes) ∨ (∃ cause, e.around.saved = .error cause) ∧ e.call.loads = false

def Holds (bytes : Bytes) (slots : Slots) (c : Controller) : Prop := c.alarms = ⟨slots, false⟩ ∧ c.stored = some bytes

theorem loads_outcome (c : Controller) (e : Event) (loads : e.call.loads = true) :
    (c.after e).alarms = (c.load e.around).controller.alarms ∧ (c.after e).stored = (c.load e.around).controller.stored := by
  obtain ⟨around, call⟩ := e
  cases call with
  | init =>
      rw [(c.after_course ⟨around, .init⟩).1]
      exact ⟨rfl, rfl⟩
  | load => exact ⟨rfl, rfl⟩
  | reload | save | schedule | resync | timerExpired | triggerNow | stop | disable slot | edit slot change => cases loads

theorem load_readable (c : Controller) (e : Event) (bytes : Bytes) (slots : Slots) (loads : e.call.loads = true)
    (read : e.around.saved = .ok (some bytes)) (decoded : Record.decode bytes = .ok slots) : (c.after e).Holds bytes slots := by
  obtain ⟨alarms, stored⟩ := c.loads_outcome e loads
  unfold Holds
  rw [alarms, stored]
  simp only [load, read, decoded, Record.of_slots_decoded bytes slots decoded, and_self]

theorem load_unread (c : Controller) (e : Event) (cause : FileError) (loads : e.call.loads = true)
    (fails : e.around.saved = .error cause) :
    (c.after e).alarms = ⟨defaultSlots, false⟩ ∧ (c.after e).stored = c.stored := by
  obtain ⟨alarms, stored⟩ := c.loads_outcome e loads
  rw [alarms, stored]
  simp only [load, fails, AlarmSet.of_slots_default, and_self]

theorem finds_decoded (e : Event) (bytes : Bytes) (slots : Slots) (finds : Finds bytes e)
    (decoded : Record.decode bytes = .ok slots) (saved : Option Bytes) (read : e.around.saved = .ok saved) :
    saved = some bytes ∧ ¬ Unreadable saved := by
  rcases finds with same | ⟨⟨cause, fails⟩, -⟩
  · rw [same] at read
    obtain rfl := Except.ok.inj read
    exact ⟨rfl, fun unreadable => unreadable bytes slots rfl decoded⟩
  · rw [fails] at read
    cases read

theorem unedited_step (c : Controller) (e : Event) (bytes : Bytes) (slots : Slots) (decoded : Record.decode bytes = .ok slots)
    (finds : Finds bytes e) (before : c.alarms.dirty = false) (clean : (c.after e).alarms.dirty = false) :
    (c.after e).alarms = c.alarms ∧ (c.after e).stored = c.stored ∧ e.call.loads = false ∨
      (c.after e).Holds bytes slots ∧ (e.call.loads = true ∨ c.stored ≠ some bytes) := by
  by_cases loads : e.call.loads = true
  · have read : e.around.saved = .ok (some bytes) := by
      rcases finds with read | ⟨-, loadsNot⟩
      · exact read
      · simp [loads] at loadsNot
    exact .inr ⟨c.load_readable e bytes slots loads read decoded, .inl loads⟩
  · have memory := call_recall c e
    have loadsNot : e.call.loads = false := Bool.eq_false_iff.mpr loads
    unfold Holds
    generalize (c.after e).alarms = alarms, (c.after e).stored = stored at memory clean ⊢
    cases memory with
    | kept => exact .inl ⟨rfl, rfl, loadsNot⟩
    | edited slot change => exact .inl ⟨c.alarms.slots_edit_of_clean slot change clean, rfl, loadsNot⟩
    | noticed _ read unreadable => exact absurd unreadable (finds_decoded e bytes slots finds decoded _ read).2
    | adopted found others read otherDecoded cause =>
        obtain rfl := Option.some.inj (finds_decoded e bytes slots finds decoded (some found) read).1
        rw [decoded] at otherDecoded
        obtain rfl := Except.ok.inj otherDecoded
        exact .inr ⟨⟨rfl, rfl⟩, cause.imp_right And.right⟩
    | defaulted _ read unreadable => exact absurd unreadable (finds_decoded e bytes slots finds decoded _ read).2
    | unread cause fails loads' => exact absurd loads' loads
    | saved _ dirty => simp [before] at dirty

theorem unedited_run (c : Controller) (events : List Event) (bytes : Bytes) (slots : Slots)
    (decoded : Record.decode bytes = .ok slots) (finds : ∀ e ∈ events, Finds bytes e) (before : c.alarms.dirty = false)
    (clean : c.StaysClean events) :
    (c.run events).alarms = c.alarms ∧ (c.run events).stored = c.stored ∧ (∀ e ∈ events, e.call.loads = false) ∨
      (c.run events).Holds bytes slots ∧ ((∃ e ∈ events, e.call.loads = true) ∨ c.stored ≠ some bytes) := by
  induction events generalizing c with
  | nil => exact .inl ⟨rfl, rfl, fun e present => absurd present List.not_mem_nil⟩
  | cons e later ih =>
      obtain ⟨cleanNow, cleanLater⟩ := clean
      have rest := ih (c.after e) (fun other present => finds other (List.mem_cons_of_mem e present)) cleanNow cleanLater
      change ((c.after e).run later).alarms = _ ∧ ((c.after e).run later).stored = _ ∧ _ ∨
        ((c.after e).run later).Holds _ _ ∧ _
      rcases c.unedited_step e bytes slots decoded (finds e List.mem_cons_self) before cleanNow with
        ⟨alarms, stored, loadsNot⟩ | ⟨holds, cause⟩
      · rw [alarms, stored] at rest
        rcases rest with ⟨sameAlarms, sameStored, noneLoads⟩ | ⟨holds, ⟨other, present, loads⟩ | unknown⟩
        · exact .inl ⟨sameAlarms, sameStored, List.forall_mem_cons.mpr ⟨loadsNot, noneLoads⟩⟩
        · exact .inr ⟨holds, .inl ⟨other, List.mem_cons_of_mem e present, loads⟩⟩
        · exact .inr ⟨holds, .inr unknown⟩
      · have held : ((c.after e).run later).Holds bytes slots := by
          rcases rest with ⟨sameAlarms, sameStored, -⟩ | ⟨holds, -⟩
          · exact ⟨sameAlarms.trans holds.1, sameStored.trans holds.2⟩
          · exact holds
        rcases cause with loads | unknown
        · exact .inr ⟨held, .inl ⟨e, List.mem_cons_self, loads⟩⟩
        · exact .inr ⟨held, .inr unknown⟩

-- The exact condition for the saved alarms to come back after a load that could not read them.
theorem unread_alarms_come_back_iff (c : Controller) (failed : Event) (between : List Event) (around : Surroundings)
    (cause : FileError) (bytes : Bytes) (slots : Slots) (loads : failed.call.loads = true)
    (fails : failed.around.saved = .error cause) (decoded : Record.decode bytes = .ok slots)
    (finds : ∀ e ∈ between, Finds bytes e) (clean : (c.after failed).StaysClean between)
    (read : around.saved = .ok (some bytes)) :
    (c.run (failed :: between ++ [⟨around, .reload⟩])).alarms.slots = slots ↔
      c.stored ≠ some bytes ∨ slots = defaultSlots ∨ ∃ e ∈ between, e.call.loads = true := by
  obtain ⟨defaults, stored⟩ := c.load_unread failed cause loads fails
  have course := (c.after failed).unedited_run between bytes slots decoded finds (by rw [defaults]) clean
  have reload := ((c.after failed).run between).reload_readable around bytes slots read decoded
  rw [stored, defaults] at course
  rw [run_append]
  change (((c.after failed).run between).after ⟨around, .reload⟩).alarms.slots = slots ↔ _
  rw [reload.2]
  rcases course with ⟨alarms, known, noneLoads⟩ | ⟨holds, cause⟩
  · have noLoad : ¬ ∃ e ∈ between, e.call.loads = true := by
      rintro ⟨e, present, loads⟩
      simp [noneLoads e present] at loads
    rw [known, alarms]
    by_cases same : c.stored = some bytes
    · rw [if_pos same]
      constructor
      · exact fun defaults => .inr (.inl defaults.symm)
      · rintro (other | defaults | loaded)
        · exact absurd same other
        · exact defaults.symm
        · exact absurd loaded noLoad
    · rw [if_neg same]
      exact iff_of_true rfl (.inl same)
  · rw [holds.2, if_pos rfl, holds.1]
    exact iff_of_true rfl (cause.elim (fun loads => .inr (.inr loads)) .inl)

def blindTuesday : Surroundings := { tuesdayReading mondays with saved := .error (.other "no access") }

theorem unknown_alarms_come_back :
    let between : List Event := [⟨tuesdayReading mondays, .schedule⟩]
    (∀ e ∈ between, Finds (Record.encode mondays) e) ∧ (initial.after ⟨blindTuesday, .load⟩).StaysClean between ∧
      Record.decode (Record.encode mondays) = .ok mondays ∧
      (initial.run (⟨blindTuesday, .load⟩ :: between ++ [⟨tuesdayReading mondays, .reload⟩])).alarms.slots = mondays := by
  have finds : ∀ e ∈ [(⟨tuesdayReading mondays, .schedule⟩ : Event)], Finds (Record.encode mondays) e := by
    simp [Finds, tuesdayReading]
  have clean : (initial.after ⟨blindTuesday, .load⟩).StaysClean [⟨tuesdayReading mondays, .schedule⟩] :=
    ⟨by decide +kernel, trivial⟩
  have decoded : Record.decode (Record.encode mondays) = .ok mondays := Record.decode_encode mondays (by decide)
  have exact := unread_alarms_come_back_iff initial ⟨blindTuesday, .load⟩ _ (tuesdayReading mondays) _ _ mondays rfl rfl
    decoded finds clean rfl
  exact ⟨finds, clean, decoded, exact.mpr (.inl (Option.some_ne_none _).symm)⟩

theorem known_alarms_stay_lost :
    let c := initial.after ⟨tuesdayReading mondays, .init⟩
    Record.decode (Record.encode mondays) = .ok mondays ∧ c.alarms = ⟨mondays, false⟩ ∧
      (c.run [⟨blindTuesday, .load⟩, ⟨tuesdayReading mondays, .reload⟩]).alarms = ⟨defaultSlots, false⟩ ∧
      defaultSlots ≠ mondays := by
  refine ⟨Record.decode_encode mondays (by decide), ?_⟩
  decide +kernel

end AlarmClock.Controller
