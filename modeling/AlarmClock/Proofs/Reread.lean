import AlarmClock.Proofs.OthersEdits
import AlarmClock.Proofs.Validity

set_option autoImplicit false

namespace AlarmClock

theorem readable_iff (saved : Option Bytes) :
    ¬ Unreadable saved ↔ ∃ bytes slots, saved = some bytes ∧ Record.decode bytes = .ok slots := by
  simp only [Unreadable, not_forall, not_not, exists_prop]

namespace Controller

theorem reload_stored (around : Surroundings) (c : Controller) (saved : Option Bytes) (read : around.saved = .ok saved) :
    (c.after ⟨around, .reload⟩).stored = saved := by
  change (c.reload around).controller.stored = saved
  by_cases same : saved = c.stored
  · rw [c.reload_same around (read.trans (congrArg Except.ok same)), same]
  · simp only [reload, read, if_neg same]
    cases saved with
    | none => rfl
    | some bytes =>
        dsimp only
        cases Record.decode bytes with
        | error fault => rfl
        | ok slots =>
            by_cases ringing : c.ringing.isSome = true
            · simp only [if_pos ringing]
            · simp only [if_neg ringing, Outcome.controller_after, Outcome.controller_map, (schedule_spec around _).1]

theorem alarms_after_save (around : Surroundings) (c : Controller)
    (done : ((⟨around, .save⟩ : Event).outcome c).result = .done) :
    (c.after ⟨around, .save⟩).alarms = ⟨c.alarms.slots, false⟩ := by
  change (c.save around).controller.alarms = _
  change Reply.ofUnit (c.save around).result = .done at done
  unfold save at done ⊢
  by_cases dirty : c.alarms.dirty = true
  · rw [if_pos dirty] at done ⊢
    cases fails : around.writeFailure with
    | none => rfl
    | some cause =>
        rw [fails] at done
        cases done
  · rw [if_neg dirty, ← Bool.eq_false_iff.mpr dirty]

end Controller

namespace Station

def hearsAll (s : Station) (events : List Event) : Station := events.foldl hears s

-- Each call can read what is saved, and nobody else writes in between.
def Undisturbed (s : Station) : List Event → Prop
  | [] => True
  | e :: later => e.around.saved = .ok s.saved ∧ (s.hears e).Undisturbed later

-- The controller has seen what is saved.
structure InStep (s : Station) : Prop where
  seen : s.controller.stored = s.saved
  coherent : s.controller.Coherent
  valid : s.controller.alarms.Valid

theorem save_seen (s : Station) (around : Surroundings) (seen : s.controller.stored = s.saved) :
    (s.hears ⟨around, .save⟩).controller.stored = (s.hears ⟨around, .save⟩).saved := by
  change (s.controller.save around).controller.stored =
    if around.writeFailure.isSome then s.saved else (s.controller.save around).writes.getLast?.or s.saved
  rw [s.controller.save_writes]
  unfold Controller.save
  by_cases dirty : s.controller.alarms.dirty = true
  · rw [if_pos dirty, if_pos dirty]
    cases around.writeFailure with
    | none => rfl
    | some cause => exact seen
  · rw [if_neg dirty, if_neg dirty]
    exact seen.trans (ite_self _).symm

theorem hears_seen (s : Station) (e : Event) (reads : e.around.saved = .ok s.saved) (seen : s.controller.stored = s.saved) :
    (s.hears e).controller.stored = (s.hears e).saved := by
  by_cases saves : e.call = .save
  · obtain ⟨around, call⟩ := e
    obtain rfl : call = .save := saves
    exact s.save_seen around seen
  · rw [s.call_saves_nothing e saves]
    have memory := call_recall s.controller e
    change (s.controller.after e).stored = s.saved
    generalize (s.controller.after e).alarms = alarms, (s.controller.after e).stored = stored at memory ⊢
    cases memory with
    | kept | edited slot change => exact seen
    | noticed saved read | adopted bytes slots read | defaulted saved read => exact Except.ok.inj (read.symm.trans reads)
    | unread cause fails => cases fails.symm.trans reads
    | saved made => exact absurd made saves

theorem hears_in_step (s : Station) (e : Event) (proper : e.call.Proper) (reads : e.around.saved = .ok s.saved)
    (inStep : s.InStep) : (s.hears e).InStep where
  seen := s.hears_seen e reads inStep.seen
  coherent := s.controller.after_coherent e (fun _ => ⟨s.saved, reads⟩) inStep.coherent
  valid := s.controller.after_valid e proper inStep.valid

theorem hears_all_in_step (s : Station) (events : List Event) (proper : ∀ e ∈ events, e.call.Proper)
    (undisturbed : s.Undisturbed events) (inStep : s.InStep) : (s.hearsAll events).InStep := by
  induction events generalizing s with
  | nil => exact inStep
  | cons e later ih =>
      obtain ⟨properFirst, properLater⟩ := List.forall_mem_cons.mp proper
      obtain ⟨reads, rest⟩ := undisturbed
      exact ih (s.hears e) properLater rest (s.hears_in_step e properFirst reads inStep)

theorem reload_in_step (s : Station) (events : List Event) (started : s.controller = Controller.initial.run events)
    (readable : ∀ e ∈ events, Controller.Readable e) (proper : ∀ e ∈ events, e.call.Proper) (reading : Surroundings)
    (reads : reading.saved = .ok s.saved) : (s.hears ⟨reading, .reload⟩).InStep where
  seen := (s.controller.reload_stored reading s.saved reads).trans (s.call_saves_nothing ⟨reading, .reload⟩ nofun).symm
  coherent := s.controller.after_coherent ⟨reading, .reload⟩ nofun (started ▸ Controller.run_coherent events readable)
  valid := s.controller.after_valid ⟨reading, .reload⟩ trivial (started ▸ Controller.run_valid events proper)

theorem loaded_after_save (s : Station) (inStep : s.InStep) (saving : Surroundings)
    (done : ((⟨saving, .save⟩ : Event).outcome s.controller).result = .done) :
    Record.loaded (s.hears ⟨saving, .save⟩).saved =
      if s.controller.alarms.dirty = true then s.controller.alarms.slots else Record.loaded s.saved := by
  rw [s.saved_by_save saving done]
  by_cases dirty : s.controller.alarms.dirty = true
  · rw [if_pos dirty, if_pos dirty]
    exact Record.loaded_decoded _ _ (Record.decode_encode _ inStep.valid)
  · rw [if_neg dirty, if_neg dirty]

theorem loaded_clean (s : Station) (inStep : s.InStep) (clean : ¬ s.controller.alarms.dirty = true)
    (readable : ¬ Unreadable s.saved) : Record.loaded s.saved = s.controller.alarms.slots := by
  obtain ⟨bytes, slots, saved, decoded⟩ := (readable_iff s.saved).mp readable
  have alarms := inStep.coherent (Bool.eq_false_iff.mpr clean) bytes slots (inStep.seen.trans saved) decoded
  rw [saved, Record.loaded_decoded bytes slots decoded, alarms]

theorem load_after_save_iff (s : Station) (events : List Event) (started : s.controller = Controller.initial.run events)
    (readable : ∀ e ∈ events, Controller.Readable e) (proper : ∀ e ∈ events, e.call.Proper) (reading : Surroundings)
    (reads : reading.saved = .ok s.saved) (between : List Event) (properBetween : ∀ e ∈ between, e.call.Proper)
    (undisturbed : (s.hears ⟨reading, .reload⟩).Undisturbed between) (saving : Surroundings)
    (done : ((⟨saving, .save⟩ : Event).outcome ((s.hears ⟨reading, .reload⟩).hearsAll between).controller).result = .done)
    (other : Controller) (loading : Surroundings) :
    let held := (s.hears ⟨reading, .reload⟩).hearsAll between
    let final := held.hears ⟨saving, .save⟩
    loading.saved = .ok final.saved →
      final.controller.alarms = ⟨held.controller.alarms.slots, false⟩ ∧
      ((other.load loading).controller.alarms = final.controller.alarms ↔
        held.controller.alarms.dirty = true ∨ ¬ Unreadable held.saved ∨ held.controller.alarms.slots = defaultSlots) ∧
      (held.controller.alarms.dirty = false → Unreadable held.saved →
        final.saved = held.saved ∧ (other.load loading).controller.alarms = ⟨defaultSlots, false⟩) := by
  intro held final loads
  have inStep : held.InStep := hears_all_in_step _ between properBetween undisturbed
    (s.reload_in_step events started readable proper reading reads)
  have kept : final.controller.alarms = ⟨held.controller.alarms.slots, false⟩ :=
    held.controller.alarms_after_save saving done
  have unwritten : held.controller.alarms.dirty = false → final.saved = held.saved := fun clean =>
    (held.saved_by_save saving done).trans (if_neg (Bool.eq_false_iff.mp clean))
  have found := held.loaded_after_save inStep saving done
  rw [other.load_alarms loading final.saved loads, kept]
  change Record.loaded final.saved = _ at found
  rw [found]
  refine ⟨rfl, ?_, fun clean unreadable => ⟨unwritten clean, ?_⟩⟩
  · by_cases dirty : held.controller.alarms.dirty = true
    · rw [if_pos dirty]
      exact iff_of_true rfl (.inl dirty)
    · rw [if_neg dirty]
      by_cases unreadable : Unreadable held.saved
      · rw [Record.loaded_unreadable held.saved unreadable]
        simp only [dirty, not_not_intro unreadable, false_or, Bool.false_eq_true]
        exact ⟨fun same => (congrArg AlarmSet.slots same).symm, fun same => by rw [same]⟩
      · rw [held.loaded_clean inStep dirty unreadable]
        exact iff_of_true rfl (.inr (.inl unreadable))
  · rw [if_neg (Bool.eq_false_iff.mp clean), Record.loaded_unreadable held.saved unreadable]

theorem stopped_set_is_loaded :
    let s := visited Days.once
    let held := (s.hears ⟨readingElsewhere Days.once, .reload⟩).hearsAll [⟨readingElsewhere Days.once, .stop⟩]
    let final := held.hears ⟨morningAt 7 1, .save⟩
    let loading := { morningAt 7 2 with saved := .ok final.saved }
    (∀ e ∈ rungAtSeven Days.once, Controller.Readable e) ∧ (∀ e ∈ rungAtSeven Days.once, e.call.Proper) ∧
      held.controller.alarms.dirty = true ∧
      (Controller.initial.load loading).controller.alarms = final.controller.alarms ∧
      final.controller.alarms = ⟨(setElsewhere Days.once).set 0 ⟨7, 0, Days.once, false⟩ (by decide), false⟩ := by
  intro s held final loading
  have readable : ∀ e ∈ rungAtSeven Days.once, Controller.Readable e := by
    simp [rungAtSeven, Controller.Readable, Call.loads]
  have proper : ∀ e ∈ rungAtSeven Days.once, e.call.Proper := by decide
  have dirty : held.controller.alarms.dirty = true := by decide +kernel
  have still := s.call_saves_nothing ⟨readingElsewhere Days.once, .reload⟩ (by simp)
  obtain ⟨-, exact, -⟩ := s.load_after_save_iff (rungAtSeven Days.once) rfl readable proper (readingElsewhere Days.once) rfl
    [⟨readingElsewhere Days.once, .stop⟩] (by decide) ⟨congrArg Except.ok still.symm, trivial⟩ (morningAt 7 1)
    (by decide +kernel) Controller.initial loading rfl
  exact ⟨readable, proper, dirty, exact.mpr (.inl dirty), by decide +kernel⟩

def bereft (saved : Option Bytes) : Station :=
  ⟨Controller.initial.run [⟨Controller.tuesdayReading Controller.mondays, .init⟩], none, saved⟩

def tuesdayFinding (saved : Option Bytes) : Surroundings :=
  { Controller.tuesdayReading Controller.mondays with saved := .ok saved }

def savesBereft (saved : Option Bytes) : Station :=
  ((bereft saved).hears ⟨tuesdayFinding saved, .reload⟩).hears ⟨tuesdayFinding saved, .save⟩

def loadsBereft (saved : Option Bytes) : AlarmSet :=
  (Controller.initial.load (tuesdayFinding (savesBereft saved).saved)).controller.alarms

-- The alarms are kept when their bytes are removed, or damaged. The save succeeds and does not write them, and a load
-- gives the defaults.
theorem removed_alarms_are_not_saved :
    (bereft none).controller.alarms = ⟨Controller.mondays, false⟩ ∧
      ((⟨tuesdayFinding none, .reload⟩ : Event).outcome (bereft none).controller).result = .answer false ∧
      ((⟨tuesdayFinding none, .save⟩ : Event).outcome
        ((bereft none).hears ⟨tuesdayFinding none, .reload⟩).controller).result = .done ∧
      (savesBereft none).controller.alarms = ⟨Controller.mondays, false⟩ ∧ (savesBereft none).saved = none ∧
      loadsBereft none = ⟨defaultSlots, false⟩ ∧
      (savesBereft (some [3, 7])).controller.alarms = ⟨Controller.mondays, false⟩ ∧
      (savesBereft (some [3, 7])).saved = some [3, 7] ∧ loadsBereft (some [3, 7]) = ⟨defaultSlots, false⟩ ∧
      defaultSlots ≠ Controller.mondays := by
  decide +kernel

end Station
end AlarmClock
