import AlarmClock.Proofs.Recall
import Mathlib.Data.List.Induction

set_option autoImplicit false

namespace AlarmClock

namespace Controller

-- Without unsaved edits, the alarms are the ones that the remembered bytes stand for.
def Coherent (c : Controller) : Prop :=
  c.alarms.dirty = false → ∀ bytes slots, c.stored = some bytes → Record.decode bytes = .ok slots →
    c.alarms = ⟨slots, false⟩

def Readable (e : Event) : Prop := e.call.loads = true → ∃ saved, e.around.saved = .ok saved

theorem initial_coherent : initial.Coherent := nofun

theorem after_coherent (c : Controller) (e : Event) (readable : Readable e) (coherent : c.Coherent) :
    (c.after e).Coherent := by
  have memory := call_recall c e
  unfold Coherent at coherent ⊢
  generalize (c.after e).alarms = alarms, (c.after e).stored = stored at memory ⊢
  cases memory with
  | kept => exact coherent
  | edited slot change =>
      intro clean
      have same := c.alarms.slots_edit_of_clean slot change clean
      rw [same] at clean ⊢
      exact coherent clean
  | noticed saved _ unreadable =>
      intro _ bytes slots remembered decoded
      exact absurd decoded (unreadable bytes slots remembered)
  | adopted bytes slots _ decoded _ =>
      intro _ others otherSlots remembered otherDecoded
      obtain rfl := Option.some.inj remembered
      rw [decoded] at otherDecoded
      rw [Except.ok.inj otherDecoded]
  | defaulted saved _ unreadable =>
      intro _ bytes slots remembered decoded
      exact absurd decoded (unreadable bytes slots remembered)
  | unread cause fails loads =>
      obtain ⟨saved, read⟩ := readable loads
      rw [fails] at read
      cases read
  | saved _ dirty =>
      intro _ bytes slots remembered decoded
      obtain rfl := Option.some.inj remembered
      rw [Record.decode_encode_same c.alarms.slots slots decoded]
      rfl

theorem run_coherent (events : List Event) (readable : ∀ e ∈ events, Readable e) : (initial.run events).Coherent := by
  induction events using List.reverseRecOn with
  | nil => exact initial_coherent
  | append_singleton earlier e ih =>
      rw [run_append]
      have before := ih fun other present => readable other (List.mem_append_left [e] present)
      exact (initial.run earlier).after_coherent e (readable e (List.mem_append_right earlier (List.mem_singleton_self e))) before

theorem reload_same (around : Surroundings) (c : Controller) (same : around.saved = .ok c.stored) :
    c.reload around = ⟨.ok false, c, []⟩ := by
  unfold reload
  simp only [same, if_true]

theorem reload_readable (around : Surroundings) (c : Controller) (bytes : Bytes) (slots : Slots)
    (read : around.saved = .ok (some bytes)) (decoded : Record.decode bytes = .ok slots) :
    (c.after ⟨around, .reload⟩).stored = some bytes ∧
      (c.after ⟨around, .reload⟩).alarms = if c.stored = some bytes then c.alarms else ⟨slots, false⟩ := by
  by_cases known : c.stored = some bytes
  · have still : c.after ⟨around, .reload⟩ = c := by
      change (c.reload around).controller = c
      rw [c.reload_same around (by rw [read, known])]
    rw [still, if_pos known]
    exact ⟨known, rfl⟩
  · rw [if_neg known, (c.after_course ⟨around, .reload⟩).1]
    simp only [Call.course, news?, read, if_neg (Ne.symm known), decoded, Except.toOption, Option.map_some, adopt,
      Record.of_slots_decoded bytes slots decoded]
    by_cases ringing : c.ringing.isSome = true
    · rw [if_pos ringing]
      exact ⟨rfl, rfl⟩
    · rw [if_neg ringing]
      exact ⟨rfl, rfl⟩

theorem clean_alarms_are_stored (events : List Event) (readable : ∀ e ∈ events, Readable e)
    (clean : (initial.run events).alarms.dirty = false) :
    let c := initial.run events
    (∀ bytes slots, c.stored = some bytes → Record.decode bytes = .ok slots → c.alarms = ⟨slots, false⟩) ∧
      ∀ (around : Surroundings) bytes slots, around.saved = .ok (some bytes) → Record.decode bytes = .ok slots →
        let reloaded := (c.reload around).controller
        reloaded.alarms = ⟨slots, false⟩ ∧
          ∀ again : Surroundings, again.saved = around.saved → reloaded.reload again = ⟨.ok false, reloaded, []⟩ := by
  intro c
  have coherent := run_coherent events readable clean
  refine ⟨coherent, fun around bytes slots read decoded => ?_⟩
  obtain ⟨stored, alarms⟩ := c.reload_readable around bytes slots read decoded
  refine ⟨?_, fun again unchanged => reload_same again _ ?_⟩
  · by_cases known : c.stored = some bytes
    · rw [if_pos known] at alarms
      exact alarms.trans (coherent bytes slots known decoded)
    · rw [if_neg known] at alarms
      exact alarms
  · rw [unchanged, read]
    exact congrArg Except.ok stored.symm

def mondays : Slots := #v[Alarm.default, Alarm.default, ⟨6, 30, Days.ofList [.monday], true⟩, Alarm.default]

def bothOn : Slots := mondays.set 0 { Alarm.default with enabled := true }

def tuesdayReading (saved : Slots) : Surroundings :=
  ⟨Clock.plain ⟨⟨2024, 1, 2⟩, 8, 0, 0, 0⟩, none, .ok (some (Record.encode saved)), none⟩

def secondAttempt : List Event :=
  [⟨tuesdayReading mondays, .init⟩, ⟨tuesdayReading mondays, .edit 0 (.setEnabled true)⟩,
    ⟨{ tuesdayReading mondays with writeFailure := some .notADirectory }, .save⟩, ⟨tuesdayReading mondays, .save⟩]

theorem saved_edit_is_stored :
    let c := initial.run secondAttempt
    let around := { tuesdayReading mondays with armFailure := some (.timer "out of timers") }
    (∀ e ∈ secondAttempt, Readable e) ∧ c.alarms.dirty = false ∧ c.stored = some (Record.encode bothOn) ∧
      c.alarms = ⟨bothOn, false⟩ ∧ (c.reload around).result = .error (.timer "out of timers") ∧
      (c.reload around).controller.alarms = ⟨mondays, false⟩ := by
  have readable : ∀ e ∈ secondAttempt, Readable e := by simp [secondAttempt, Readable, tuesdayReading]
  have clean : (initial.run secondAttempt).alarms.dirty = false := by decide +kernel
  have stored : (initial.run secondAttempt).stored = some (Record.encode bothOn) := by decide +kernel
  have own : Record.decode (Record.encode bothOn) = .ok bothOn := Record.decode_encode bothOn (by decide)
  have others : Record.decode (Record.encode mondays) = .ok mondays := Record.decode_encode mondays (by decide)
  obtain ⟨coherent, reloads⟩ := clean_alarms_are_stored secondAttempt readable clean
  exact ⟨readable, clean, stored, coherent _ bothOn stored own, by decide +kernel, (reloads _ _ mondays rfl others).1⟩

end Controller
end AlarmClock
