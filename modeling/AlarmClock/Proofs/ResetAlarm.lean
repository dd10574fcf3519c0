import AlarmClock.Proofs.OthersEdits
import AlarmClock.Proofs.Validity

set_option autoImplicit false

namespace AlarmClock

theorem Alarm.stopped_on_iff (alarm : Alarm) :
    alarm.stopped.enabled = true ↔ alarm.stopped = alarm ∧ alarm.enabled = true := by
  constructor
  · intro on
    rw [alarm.stopped_eq] at on
    obtain ⟨enabled, repeats⟩ := Bool.and_eq_true_iff.mp on
    exact ⟨alarm.stopped_iff.mpr (.inl ((Bool.not_eq_true' _).mp repeats)), enabled⟩
  · rintro ⟨same, on⟩
    rw [same]
    exact on

-- A stop does not switch the slot off, and a save does not write that it is off.
def AlarmSet.Spares (set : AlarmSet) (slot : Nat) (inside : slot < slotCount) : Prop :=
  (set.slots[slot].isOneShot = false ∨ set.slots[slot].enabled = false) ∧
    (set.dirty = true → set.slots[slot].enabled = true)

instance (set : AlarmSet) (slot : Nat) (inside : slot < slotCount) : Decidable (set.Spares slot inside) :=
  inferInstanceAs (Decidable (_ ∧ _))

namespace Station

-- Others have switched on an alarm in a slot, to ring once.
structure Reset (s : Station) (slot : Nat) (inside : slot < slotCount) (bytes : Bytes) (slots : Slots) : Prop where
  saved : s.saved = some bytes
  decoded : Record.decode bytes = .ok slots
  on : slots[slot].enabled = true
  once : slots[slot].isOneShot = true

theorem stop_spares_iff (s : Station) (stopping saving : Surroundings) (slot : Nat) (inside : slot < slotCount)
    (bytes : Bytes) (slots : Slots) (reset : s.Reset slot inside bytes slots) (rings : s.controller.ringing = some slot)
    (valid : (s.controller.after ⟨stopping, .stop⟩).alarms.Valid)
    (done : ((⟨saving, .save⟩ : Event).outcome (s.controller.after ⟨stopping, .stop⟩)).result = .done) :
    ∃ last after, ((s.hears ⟨stopping, .stop⟩).hears ⟨saving, .save⟩).saved = some last ∧ Record.decode last = .ok after ∧
      (after[slot].enabled = true ↔ s.controller.alarms.Spares slot inside) := by
  have unsaved := (s.call_saves_nothing ⟨stopping, .stop⟩ nofun).trans reset.saved
  have saved := (s.hears ⟨stopping, .stop⟩).saved_by_save saving done
  have alarms : (s.hears ⟨stopping, .stop⟩).controller.alarms = _ := s.controller.stop_alarms stopping slot inside rings
  rw [unsaved, alarms] at saved
  rw [s.controller.stop_alarms stopping slot inside rings] at valid
  unfold AlarmSet.Spares
  rw [← Alarm.stopped_iff]
  generalize s.controller.alarms.slots[slot] = own at saved valid ⊢
  by_cases dirty : (s.controller.alarms.dirty || own.stopped != own) = true
  · rw [if_pos dirty] at saved
    refine ⟨_, _, saved, Record.decode_encode _ valid, ?_⟩
    rw [Vector.getElem_set_self, Alarm.stopped_on_iff]
    constructor
    · exact fun ⟨same, on⟩ => ⟨same, fun _ => on⟩
    · rintro ⟨same, on⟩
      rw [same, bne_self_eq_false, Bool.or_false] at dirty
      exact ⟨same, on dirty⟩
  · rw [if_neg dirty] at saved
    obtain ⟨clean, same⟩ := Bool.or_eq_false_iff.mp (Bool.eq_false_iff.mpr dirty)
    refine ⟨bytes, slots, saved, reset.decoded, iff_of_true reset.on ⟨bne_eq_false_iff_eq.mp same, fun changed => ?_⟩⟩
    rw [clean] at changed
    cases changed

theorem reset_alarm_stays_on_iff (s : Station) (events : List Event) (proper : ∀ e ∈ events, e.call.Proper)
    (started : s.controller = Controller.initial.run events) (slot : Nat) (inside : slot < slotCount)
    (rings : s.controller.ringing = some slot) (bytes : Bytes) (slots : Slots) (reset : s.Reset slot inside bytes slots)
    (reading stopping saving : Surroundings) (reads : reading.saved = .ok s.saved)
    (done : ((⟨saving, .save⟩ : Event).outcome
      ((s.controller.after ⟨reading, .reload⟩).after ⟨stopping, .stop⟩)).result = .done) :
    let final := ((s.hears ⟨reading, .reload⟩).hears ⟨stopping, .stop⟩).hears ⟨saving, .save⟩
    let own := s.controller.alarms
    ∃ last after, final.saved = some last ∧ Record.decode last = .ok after ∧
      (after[slot].enabled = true ↔ s.controller.stored = some bytes ∧ own.Spares slot inside) ∧
      ((∀ e ∈ events, Controller.Readable e) → (after[slot].enabled = true ↔ s.controller.stored = some bytes ∧
        own.dirty = true ∧ own.slots[slot].isOneShot = false ∧ own.slots[slot].enabled = true)) := by
  intro final own
  have read : reading.saved = .ok (some bytes) := reads.trans (congrArg Except.ok reset.saved)
  obtain ⟨-, adopted⟩ := s.controller.reload_readable reading bytes slots read reset.decoded
  have stillReset : (s.hears ⟨reading, .reload⟩).Reset slot inside bytes slots :=
    ⟨(s.call_saves_nothing ⟨reading, .reload⟩ nofun).trans reset.saved, reset.decoded, reset.on, reset.once⟩
  have stillRings := s.controller.ringing_kept ⟨reading, .reload⟩ slot nofun rings
  have valid : ((s.controller.after ⟨reading, .reload⟩).after ⟨stopping, .stop⟩).alarms.Valid := by
    have before : s.controller.alarms.Valid := started ▸ Controller.run_valid events proper
    exact Controller.after_valid _ _ trivial (Controller.after_valid _ _ trivial before)
  obtain ⟨last, after, saved, decoded, spares⟩ :=
    (s.hears ⟨reading, .reload⟩).stop_spares_iff stopping saving slot inside bytes slots stillReset stillRings valid done
  have lost : ¬ AlarmSet.Spares ⟨slots, false⟩ slot inside := by
    rintro ⟨repeats | off, -⟩
    · exact Bool.false_ne_true (repeats.symm.trans reset.once)
    · exact Bool.false_ne_true (off.symm.trans reset.on)
  have known : after[slot].enabled = true ↔ s.controller.stored = some bytes ∧ own.Spares slot inside := by
    rw [spares]
    change (s.controller.after ⟨reading, .reload⟩).alarms.Spares slot inside ↔ _
    rw [adopted]
    by_cases same : s.controller.stored = some bytes
    · rw [if_pos same, and_iff_right same]
    · rw [if_neg same]
      exact iff_of_false lost fun both => same both.1
  refine ⟨last, after, saved, decoded, known, fun readable => known.trans (and_congr_right fun same => ?_)⟩
  constructor
  · intro spared
    have dirty : own.dirty = true := by
      by_contra clean
      have coherent : s.controller.Coherent := started ▸ Controller.run_coherent events readable
      have taken := coherent (Bool.eq_false_iff.mpr clean) bytes slots same reset.decoded
      exact lost (taken ▸ spared)
    have on := spared.2 dirty
    exact ⟨dirty, spared.1.resolve_right fun off => Bool.false_ne_true (off.symm.trans on), on⟩
  · rintro ⟨-, repeats, on⟩
    exact ⟨.inl repeats, fun _ => on⟩

def resetElsewhere : Slots := #v[⟨9, 15, Days.once, true⟩, Alarm.default, Alarm.default, Alarm.default]

def readingReset : Surroundings := { morningAt 7 0 with saved := .ok (some (Record.encode resetElsewhere)) }

def rungOnce : List Event :=
  [⟨{ morningAt 6 0 with saved := .ok (some (Record.encode (sevenOn Days.once))) }, .init⟩, ⟨morningAt 7 0, .timerExpired⟩]

def resetStation (events : List Event) : Station :=
  ⟨Controller.initial.run events, none, some (Record.encode resetElsewhere)⟩

def stopsReset (events : List Event) : Station :=
  (((resetStation events).hears ⟨readingReset, .reload⟩).hears ⟨morningAt 7 1, .stop⟩).hears ⟨morningAt 7 1, .save⟩

def rungThenDaily : List Event :=
  rungOnce ++ [⟨readingReset, .reload⟩, ⟨morningAt 7 0, .edit 0 (.setDays Days.daily)⟩]

theorem unsaved_days_keep_reset_on :
    (∀ e ∈ rungThenDaily, e.call.Proper) ∧ (resetStation rungThenDaily).controller.ringing = some 0 ∧
      (resetStation rungThenDaily).Reset 0 (by decide) (Record.encode resetElsewhere) resetElsewhere ∧
      ∃ last after, (stopsReset rungThenDaily).saved = some last ∧ Record.decode last = .ok after ∧
        after[0].enabled = true := by
  have proper : ∀ e ∈ rungThenDaily, e.call.Proper := by decide
  have rings : (resetStation rungThenDaily).controller.ringing = some 0 := by decide +kernel
  have reset : (resetStation rungThenDaily).Reset 0 (by decide) (Record.encode resetElsewhere) resetElsewhere :=
    ⟨rfl, Record.decode_encode _ (by decide), rfl, rfl⟩
  obtain ⟨last, after, saved, decoded, stays, -⟩ := (resetStation rungThenDaily).reset_alarm_stays_on_iff _ proper rfl 0
    (by decide) rings _ _ reset readingReset (morningAt 7 1) (morningAt 7 1) rfl (by decide +kernel)
  exact ⟨proper, rings, reset, last, after, saved, decoded, stays.mpr ⟨by decide +kernel, by decide +kernel⟩⟩

def resetLost : Slots := #v[⟨9, 15, Days.once, false⟩, Alarm.default, Alarm.default, Alarm.default]

theorem stop_switches_reset_off :
    let rung := resetStation rungOnce
    let reloaded := rung.hears ⟨readingReset, .reload⟩
    let stopped := reloaded.hears ⟨morningAt 7 1, .stop⟩
    rung.controller.ringing = some 0 ∧ rung.controller.alarms = ⟨sevenOn Days.once, false⟩ ∧
      rung.saved = some (Record.encode resetElsewhere) ∧
      Record.decode (Record.encode resetElsewhere) = .ok resetElsewhere ∧
      ((⟨readingReset, .reload⟩ : Event).outcome rung.controller).result = .answer true ∧
      ((⟨morningAt 7 1, .stop⟩ : Event).outcome reloaded.controller).result = .done ∧
      ((⟨morningAt 7 1, .save⟩ : Event).outcome stopped.controller).result = .done ∧
      (stopsReset rungOnce).saved = some (Record.encode resetLost) ∧
      Record.decode (Record.encode resetLost) = .ok resetLost ∧ (stopsReset rungOnce).controller.status = .idle := by
  refine ⟨?_, ?_, rfl, Record.decode_encode _ (by decide), ?_, ?_, ?_, ?_, Record.decode_encode _ (by decide), ?_⟩
  all_goals decide +kernel

end Station
end AlarmClock
