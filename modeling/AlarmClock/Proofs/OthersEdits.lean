import AlarmClock.Proofs.Rearm
import AlarmClock.Proofs.SharedBytes

set_option autoImplicit false

namespace AlarmClock

namespace Controller

theorem ringing_in_range (events : List Event) (slot : Nat) (rings : (initial.run events).ringing = some slot) :
    slot < slotCount := by
  induction events using List.reverseRecOn generalizing slot with
  | nil => cases rings
  | append_singleton earlier e ih =>
      rw [run_append] at rings
      rcases (initial.run earlier).ringing_source e slot rings with woken | ⟨-, before⟩
      · have heard : slot ∈ (e.outcome (initial.run earlier)).wakes := by
          rw [woken]
          exact List.mem_singleton_self slot
        obtain ⟨-, next, scheduled, rfl⟩ := (initial.run earlier).woken_is_next e slot heard
        exact run_in_range earlier next scheduled
      · exact ih slot before

end Controller

namespace Station

theorem call_saves_nothing (s : Station) (e : Event) (savesNot : e.call ≠ .save) : (s.hears e).saved = s.saved := by
  simp [hears, s.controller.call_writes_nothing e savesNot]

theorem save_hears (s : Station) (around : Surroundings) (writes : around.writeFailure = none) :
    (s.hears ⟨around, .save⟩).saved = (s.controller.save around).writes.getLast?.or s.saved := by
  simp only [hears, writes, Option.isSome_none, Bool.false_eq_true, if_false]
  rfl

theorem saved_by_save (s : Station) (around : Surroundings)
    (done : ((⟨around, .save⟩ : Event).outcome s.controller).result = .done) :
    (s.hears ⟨around, .save⟩).saved =
      if s.controller.alarms.dirty then some (Record.encode s.controller.alarms.slots) else s.saved := by
  by_cases dirty : s.controller.alarms.dirty = true
  · have writes : around.writeFailure = none := by
      cases fails : around.writeFailure with
      | none => rfl
      | some cause => simp [Event.outcome, Call.outcome, Controller.save, dirty, fails, Reply.ofUnit] at done
    rw [s.save_hears around writes, s.controller.save_writes, if_pos dirty, if_pos dirty]
    rfl
  · have silent : ((⟨around, .save⟩ : Event).outcome s.controller).writes = [] := by
      rw [s.controller.call_writes, if_neg fun both => dirty both.2]
    rw [if_neg dirty, hears, silent]
    exact ite_self _

-- Others have saved alarms that the station has not seen yet, and reads now.
structure News (s : Station) (reading : Surroundings) (bytes : Bytes) (slots : Slots) : Prop where
  saved : s.saved = some bytes
  unseen : s.controller.stored ≠ some bytes
  decoded : Record.decode bytes = .ok slots
  reads : reading.saved = .ok s.saved

theorem stop_after_news (s : Station) (reading stopping : Surroundings) (bytes : Bytes) (slots : Slots)
    (news : s.News reading bytes slots) (slot : Nat) (inside : slot < slotCount)
    (rings : s.controller.ringing = some slot) :
    let stopped := (s.hears ⟨reading, .reload⟩).hears ⟨stopping, .stop⟩
    stopped.controller.alarms = AlarmSet.revised slots slot inside slots[slot].stopped ∧ stopped.saved = some bytes := by
  intro stopped
  have read : reading.saved = .ok (some bytes) := news.reads.trans (congrArg Except.ok news.saved)
  obtain ⟨-, adopted⟩ := s.controller.reload_readable reading bytes slots read news.decoded
  rw [if_neg news.unseen] at adopted
  have stillRings := s.controller.ringing_kept ⟨reading, .reload⟩ slot nofun rings
  refine ⟨Controller.stop_revises stopping _ slots slot inside adopted stillRings, ?_⟩
  exact ((s.hears ⟨reading, .reload⟩).call_saves_nothing ⟨stopping, .stop⟩ nofun).trans
    ((s.call_saves_nothing ⟨reading, .reload⟩ nofun).trans news.saved)

theorem stop_keeps_others_edits (s : Station) (events : List Event) (started : s.controller = Controller.initial.run events)
    (slot : Nat) (rings : s.controller.ringing = some slot) (bytes : Bytes) (slots : Slots)
    (reading stopping saving : Surroundings) (news : s.News reading bytes slots) (writes : saving.writeFailure = none) :
    let reloaded := s.hears ⟨reading, .reload⟩
    let stopped := reloaded.hears ⟨stopping, .stop⟩
    let final := stopped.hears ⟨saving, .save⟩
    ((⟨saving, .save⟩ : Event).outcome stopped.controller).result = .done ∧
      ∃ (inside : slot < slotCount) (last : Bytes) (after : Slots), final.saved = some last ∧
        Record.decode last = .ok after ∧
        (∀ other (otherInside : other < slotCount), other ≠ slot → after[other] = slots[other]) ∧
        after[slot] = { slots[slot] with enabled := slots[slot].enabled && !slots[slot].isOneShot } ∧
        (slots[slot].isOneShot = false ∨ slots[slot].enabled = false → last = bytes ∧
          ((⟨reading, .reload⟩ : Event).outcome s.controller).writes = [] ∧
          ((⟨stopping, .stop⟩ : Event).outcome reloaded.controller).writes = [] ∧
          ((⟨saving, .save⟩ : Event).outcome stopped.controller).writes = []) := by
  intro reloaded stopped final
  have inside : slot < slotCount := Controller.ringing_in_range events slot (started ▸ rings)
  obtain ⟨revised, unsaved⟩ := s.stop_after_news reading stopping bytes slots news slot inside rings
  have written := Controller.save_revised saving stopped.controller slots slot inside _ revised
  have finalSaved := stopped.save_hears saving writes
  rw [written, unsaved] at finalSaved
  have valid := Record.decode_valid bytes slots news.decoded slot inside
  obtain ⟨last, found, decoded⟩ := Record.rewrite_decodes bytes slots news.decoded slot inside slots[slot].stopped
    (slots[slot].stopped_valid valid)
  have done : ((⟨saving, .save⟩ : Event).outcome stopped.controller).result = .done :=
    congrArg Reply.ofUnit (stopped.controller.save_done saving writes)
  refine ⟨done, inside, last, _, finalSaved.trans found, decoded, ?_, ?_, fun idle => ?_⟩
  · intro other otherInside different
    exact Vector.getElem_set_ne inside otherInside different.symm
  · rw [Vector.getElem_set_self]
    exact slots[slot].stopped_eq
  · have nothing : Record.rewrite slots slot inside slots[slot].stopped = [] :=
      if_pos ((slots[slot].stopped_iff).mpr idle)
    rw [nothing] at found written
    exact ⟨(Option.some.inj found).symm, s.controller.call_writes_nothing ⟨reading, .reload⟩ nofun,
      reloaded.controller.call_writes_nothing ⟨stopping, .stop⟩ nofun, written⟩

def sevenOn (days : Days) : Slots := #v[⟨7, 0, days, true⟩, Alarm.default, Alarm.default, Alarm.default]

def rungAtSeven (days : Days) : List Event :=
  [⟨{ morningAt 6 0 with saved := .ok (some (Record.encode (sevenOn days))) }, .init⟩,
    ⟨morningAt 6 30, .edit 2 (.setTime 5 0)⟩, ⟨morningAt 7 0, .timerExpired⟩]

def setElsewhere (days : Days) : Slots := (sevenOn days).set 1 ⟨8, 30, Days.ofList [.monday], true⟩ (Nat.one_lt_succ_succ 2)

def savedElsewhere (days : Days) : Bytes := Record.encode (setElsewhere days) ++ [9, 9]

def visited (days : Days) : Station := ⟨Controller.initial.run (rungAtSeven days), none, some (savedElsewhere days)⟩

def readingElsewhere (days : Days) : Surroundings := { morningAt 7 0 with saved := .ok (some (savedElsewhere days)) }

def stopsAfterNews (days : Days) : Station :=
  (((visited days).hears ⟨readingElsewhere days, .reload⟩).hears ⟨refusing (morningAt 7 1), .stop⟩).hears
    ⟨morningAt 7 1, .save⟩

theorem visited_news (days : Days) (choice : days = Days.once ∨ days = Days.daily) :
    (visited days).News (readingElsewhere days) (savedElsewhere days) (setElsewhere days) := by
  refine ⟨rfl, ?_, (Record.decode_prefix_iff _ _).mpr ?_, rfl⟩
  · rcases choice with rfl | rfl
    · decide +kernel
    · decide +kernel
  · rcases choice with rfl | rfl
    · decide +kernel
    · decide +kernel

-- The timer can not be armed at the stop. An alarm that rings once is switched off in the saved bytes, and for a daily
-- one they are not touched.
theorem other_slot_is_kept :
    (visited Days.once).controller.ringing = some 0 ∧ (visited Days.once).controller.alarms.dirty = true ∧
      (visited Days.daily).controller.ringing = some 0 ∧
      (∃ last after, (stopsAfterNews Days.once).saved = some last ∧ Record.decode last = .ok after ∧
        after[1] = (setElsewhere Days.once)[1] ∧ after[2] = Alarm.default ∧ after[0].enabled = false) ∧
      (stopsAfterNews Days.daily).saved = some (savedElsewhere Days.daily) := by
  have ringsOnce : (visited Days.once).controller.ringing = some 0 := by decide +kernel
  have ringsDaily : (visited Days.daily).controller.ringing = some 0 := by decide +kernel
  obtain ⟨-, inside, last, after, saved, decoded, others, own, -⟩ := (visited Days.once).stop_keeps_others_edits _ rfl 0
    ringsOnce _ _ _ (refusing (morningAt 7 1)) (morningAt 7 1) (visited_news Days.once (.inl rfl)) rfl
  obtain ⟨-, insideDaily, lastDaily, -, savedDaily, -, -, -, untouched⟩ := (visited Days.daily).stop_keeps_others_edits _ rfl 0
    ringsDaily _ _ _ (refusing (morningAt 7 1)) (morningAt 7 1) (visited_news Days.daily (.inr rfl)) rfl
  refine ⟨ringsOnce, by decide +kernel, ringsDaily, ⟨last, after, saved, decoded, ?_, ?_, ?_⟩, ?_⟩
  · exact others 1 (by decide) (by decide)
  · exact others 2 (by decide) (by decide)
  · rw [own]
    rfl
  · rw [← (untouched (.inl rfl)).1]
    exact savedDaily

end Station
end AlarmClock
