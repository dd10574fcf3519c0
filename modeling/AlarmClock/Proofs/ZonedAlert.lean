import AlarmClock.Proofs.DueReload
import AlarmClock.Proofs.LocalOrder

set_option autoImplicit false

namespace AlarmClock

namespace Zone

variable (zone : Zone) (time : LocalTime)

-- The clock shows the time or a later one, now or within a second.
def OnTime (instant : Moment) : Prop :=
  ∃ moment : Moment, instant.nanos ≤ moment.nanos ∧ moment.nanos ≤ instant.nanos + 1000000000 ∧
    time ≤ zone.localTime moment

-- The time names an instant, and from this on the clock shows it or a later one.
def Settles : Prop :=
  ∃ moment, zone.resolve? time = some moment ∧ ∀ later : Moment, moment.nanos ≤ later.nanos → time ≤ zone.localTime later

theorem until_resolved (instant moment : Moment) (resolved : zone.resolve? time = some moment) :
    (Clock.inZone zone instant).untilTime time = (moment.nanos - instant.nanos).toNat := by
  unfold Clock.inZone
  dsimp only
  rw [resolved]

theorem until_unresolved (instant : Moment) (none : zone.resolve? time = none) :
    (Clock.inZone zone instant).untilTime time = 0 := by
  unfold Clock.inZone
  dsimp only
  rw [none]

theorem until_le_iff (instant : Moment) (span : Nat) :
    (Clock.inZone zone instant).untilTime time ≤ span ↔
      ∀ moment, zone.resolve? time = some moment → moment.nanos ≤ instant.nanos + span := by
  cases resolved : zone.resolve? time with
  | none =>
      rw [zone.until_unresolved time instant resolved]
      exact iff_of_true (Nat.zero_le span) nofun
  | some moment =>
      rw [zone.until_resolved time instant moment resolved]
      simp only [Option.some.injEq, forall_eq']
      omega

theorem early_instant : ∃ instant, zone.localTime instant < time := by
  cases zone with
  | fixed offset =>
      refine ⟨⟨time.nanos - offset * 1000000000 - 1⟩, ?_⟩
      change time.nanos - offset * 1000000000 - 1 + offset * 1000000000 < time.nanos
      omega
  | seasonal standard summer toSummer toStandard =>
      refine ⟨⟨time.nanos - max standard summer * 1000000000 - 1⟩, ?_⟩
      change time.nanos - max standard summer * 1000000000 - 1 + _ * 1000000000 < time.nanos
      rcases offset_at_cases with same | same
      · rw [same]
        omega
      · rw [same]
        omega

theorem until_zero_shown_iff :
    (∀ instant, (Clock.inZone zone instant).untilTime time = 0 → time ≤ zone.localTime instant) ↔ zone.Settles time := by
  constructor
  · intro shown
    cases resolved : zone.resolve? time with
    | none =>
        obtain ⟨instant, earlier⟩ := zone.early_instant time
        exact absurd (shown instant (zone.until_unresolved time instant resolved)) (Int.not_le.mpr earlier)
    | some moment =>
        refine ⟨moment, resolved, fun later order => shown later ?_⟩
        rw [zone.until_resolved time later moment resolved]
        omega
  · rintro ⟨moment, resolved, stays⟩ instant none
    have passed := (zone.until_le_iff time instant 0).mp (Nat.le_of_eq none) moment resolved
    exact stays instant (by omega)

theorem settled_on_time (instant : Moment) (settles : zone.Settles time)
    (near : (Clock.inZone zone instant).untilTime time ≤ Span.ofSeconds 1) : zone.OnTime time instant := by
  obtain ⟨moment, resolved, stays⟩ := settles
  have order := (zone.until_le_iff time instant (Span.ofSeconds 1)).mp near moment resolved
  refine ⟨⟨max instant.nanos moment.nanos⟩, Int.le_max_left _ _, ?_, stays _ (Int.le_max_right _ _)⟩
  simp only [Span.ofSeconds] at order ⊢
  omega

theorem settles_iff (orderly : zone.Orderly) (inland : time.Inland) : zone.Settles time ↔ ¬ zone.Lost time := by
  rw [← zone.resolve_none_iff orderly time inland]
  constructor
  · rintro ⟨moment, resolved, -⟩ none
    exact absurd (none.symm.trans resolved) nofun
  · intro resolves
    obtain ⟨moment, resolved⟩ := Option.ne_none_iff_exists'.mp resolves
    exact ⟨moment, resolved, fun later => zone.resolve_stays orderly time moment later resolved⟩

theorem until_zero_iff (orderly : zone.Orderly) (inland : time.Inland) (instant : Moment)
    (ahead : zone.localTime instant < time) :
    (Clock.inZone zone instant).untilTime time = 0 ↔ zone.Lost time := by
  constructor
  · intro none
    by_contra kept
    have settles := (zone.settles_iff time orderly inland).mpr kept
    exact absurd ((zone.until_zero_shown_iff time).mpr settles instant none) (Int.not_le.mpr ahead)
  · intro lost
    exact zone.until_unresolved time instant ((zone.resolve_none_iff orderly time inland).mpr lost)

end Zone

namespace Controller

theorem armed_span (around : Surroundings) (c : Controller) (next : NextAlarm) (span : Nat)
    (found : c.soonest around = some next) (armed : (c.schedule around).commands = [.arm span]) :
    span = around.clock.untilTime next.due := by
  rw [(c.schedule_spec around).2.1, planCommands, found] at armed
  dsimp only at armed
  split at armed
  · cases armed
  · exact (TimerCommand.arm.inj (List.singleton_inj.mp armed)).symm

theorem zoned_alarm_is_on_time_iff (zone : Zone) (events : List Event) (next : NextAlarm)
    (quiet : (initial.run events).ringing = none) (scheduled : (initial.run events).next = some next) :
    let c := initial.run events
    ((∀ (around : Surroundings) (instant : Moment), around.clock = Clock.inZone zone instant →
          (c.after ⟨around, .timerExpired⟩).ringing = some next.slot → zone.OnTime next.due instant) ∧
        (∀ instant, (Clock.inZone zone instant).untilTime next.due = 0 → next.due ≤ zone.localTime instant) ↔
      zone.Settles next.due) ∧
      (zone.Orderly → next.due.Inland →
        (zone.Settles next.due ↔ ¬ zone.Lost next.due) ∧ (zone.gap ≤ 3600 → ¬ zone.Lost next.due)) ∧
      ∀ (around : Surroundings) (instant : Moment) (found : NextAlarm) (span : Nat),
        around.clock = Clock.inZone zone instant → c.soonest around = some found →
          (c.schedule around).commands = [.arm span] →
            span = (Clock.inZone zone instant).untilTime found.due ∧
              (zone.Orderly → found.due.Inland → (span = 0 ↔ zone.Lost found.due) ∧
                (¬ zone.Lost found.due → ∀ later : Moment, instant.nanos + span ≤ later.nanos →
                  found.due ≤ zone.localTime later)) := by
  intro c
  refine ⟨⟨fun laws => (zone.until_zero_shown_iff next.due).mp laws.2, fun settles => ⟨?_, ?_⟩⟩, ?_, ?_⟩
  · intro around instant clock rings
    obtain ⟨due, same, near⟩ := (expiry_rings_iff around c next.slot quiet).mp rings
    have time : next.due = due := congrArg NextAlarm.due (Option.some.inj (scheduled.symm.trans same))
    rw [clock, ← time] at near
    exact zone.settled_on_time next.due instant settles near
  · exact (zone.until_zero_shown_iff next.due).mpr settles
  · intro orderly inland
    exact ⟨zone.settles_iff next.due orderly inland, fun short => zone.never_lost orderly short next.due⟩
  · intro around instant found span clock soonest armed
    have times := initial.run_timed events AlarmSet.timed_empty
    have ahead := find_next_later _ _ found times soonest
    have armedFor := c.armed_span around found span soonest armed
    rw [clock] at ahead armedFor
    refine ⟨armedFor, fun orderly inland => ⟨?_, fun kept later order => ?_⟩⟩
    · rw [armedFor]
      exact zone.until_zero_iff found.due orderly inland instant ahead
    · obtain ⟨moment, resolved, stays⟩ := (zone.settles_iff found.due orderly inland).mpr kept
      have reached := (zone.until_le_iff found.due instant span).mp (Nat.le_of_eq armedFor.symm) moment resolved
      exact stays later (Int.le_trans reached order)

def twoHourZone : Zone := .seasonal 0 7200 ⟨3, 5, 0, 3600⟩ ⟨10, 5, 0, 10800⟩

def oneHourZone : Zone := .seasonal 3600 7200 ⟨3, 5, 0, 7200⟩ ⟨10, 5, 0, 10800⟩

theorem one_hour_zone_orderly : oneHourZone.Orderly :=
  Zone.orderly_of_months 3600 7200 ⟨3, 5, 0, 7200⟩ ⟨10, 5, 0, 10800⟩ (by decide)
    ⟨⟨by decide, by decide, by decide⟩, ⟨by decide, by decide, by decide⟩⟩ (by decide) (by decide)

def utcMoment (date : Date) (hour minute : Nat) : Moment := ⟨(LocalTime.ofParts date hour minute 0 0).nanos⟩

def inZone (zone : Zone) (instant : Moment) : Surroundings := ⟨Clock.inZone zone instant, none, .ok none, none⟩

def eveningBefore (zone : Zone) (hour minute : UInt8) : List Event :=
  let around := inZone zone (utcMoment ⟨2024, 3, 30⟩ 22 0)
  [⟨around, .edit 0 (.setTime hour minute)⟩, ⟨around, .edit 0 (.setEnabled true)⟩, ⟨around, .schedule⟩]

theorem skipped_alarm_is_on_time :
    let c := initial.run (eveningBefore oneHourZone 2 30)
    let due := LocalTime.ofParts ⟨2024, 3, 31⟩ 2 30 0 0
    let evening := utcMoment ⟨2024, 3, 30⟩ 22 0
    let morning := utcMoment ⟨2024, 3, 31⟩ 1 30
    c.ringing = none ∧ c.next = some ⟨0, due⟩ ∧ oneHourZone.Orderly ∧ due.Inland ∧ oneHourZone.Skips due ∧
      c.soonest (inZone oneHourZone evening) = some ⟨0, due⟩ ∧
      (c.schedule (inZone oneHourZone evening)).commands = [.arm (Span.ofSeconds 12600)] ∧
      due ≤ oneHourZone.localTime morning ∧
      (c.after ⟨inZone oneHourZone morning, .timerExpired⟩).ringing = some 0 ∧ oneHourZone.OnTime due morning := by
  intro c due evening morning
  have quiet : c.ringing = none := by decide +kernel
  have scheduled : c.next = some ⟨0, due⟩ := by decide +kernel
  have orderly := one_hour_zone_orderly
  have inland : due.Inland := by decide +kernel
  have skipped : oneHourZone.Skips due := by decide +kernel
  have soonest : c.soonest (inZone oneHourZone evening) = some ⟨0, due⟩ := by decide +kernel
  have armed : (c.schedule (inZone oneHourZone evening)).commands = [.arm (Span.ofSeconds 12600)] := by decide +kernel
  have rings : (c.after ⟨inZone oneHourZone morning, .timerExpired⟩).ringing = some 0 := by decide +kernel
  obtain ⟨laws, settled, timed⟩ := zoned_alarm_is_on_time_iff oneHourZone (eveningBefore oneHourZone 2 30) _ quiet scheduled
  obtain ⟨settles, never⟩ := settled orderly inland
  have kept := never (by decide)
  refine ⟨quiet, scheduled, orderly, inland, skipped, soonest, armed, ?_, rings, ?_⟩
  · have waits := (timed (inZone oneHourZone evening) evening ⟨0, due⟩ _ rfl soonest armed).2 orderly inland
    exact waits.2 kept morning (by decide +kernel)
  · exact (laws.mpr (settles.mpr kept)).1 (inZone oneHourZone morning) morning rfl rings

theorem lost_alarm_rings_at_once :
    let c := initial.run (eveningBefore twoHourZone 1 30)
    let due := LocalTime.ofParts ⟨2024, 3, 31⟩ 1 30 0 0
    let evening := utcMoment ⟨2024, 3, 30⟩ 22 0
    c.ringing = none ∧ c.next = some ⟨0, due⟩ ∧
      (c.schedule (inZone twoHourZone evening)).commands = [.arm 0] ∧
      (c.after ⟨inZone twoHourZone evening, .timerExpired⟩).ringing = some 0 ∧
      ∀ moment : Moment, moment.nanos ≤ evening.nanos + 1000000000 → twoHourZone.localTime moment < due := by
  intro c due evening
  refine ⟨by decide +kernel, by decide +kernel, by decide +kernel, by decide +kernel, fun moment before => ?_⟩
  have apart : evening.nanos + 1000000000 + 7200 * 1000000000 < due.nanos := by decide +kernel
  change moment.nanos + twoHourZone.offsetAt moment * 1000000000 < due.nanos
  rcases Zone.offset_at_cases with same | same
  · rw [twoHourZone, same]
    omega
  · rw [twoHourZone, same]
    omega

end Controller
end AlarmClock
