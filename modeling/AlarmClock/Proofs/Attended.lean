import AlarmClock.Proofs.Watch

set_option autoImplicit false

namespace AlarmClock.Watch

def unhandled (w : Watch) : List Message := w.stage.held ++ w.daemon.inbox

def Attended (w : Watch) : Prop :=
  w.stage ≠ .crashed → ∀ slot, w.daemon.controller.ringing = some slot →
    w.daemon.ringingSince.isSome = true ∨ .alarmRinging slot ∈ w.unhandled

theorem attended_moves (w after : Watch) (attended : w.Attended) (goesOn : w.stage ≠ .crashed)
    (ringing : after.daemon.controller.ringing = w.daemon.controller.ringing)
    (since : after.daemon.ringingSince = w.daemon.ringingSince)
    (kept : ∀ slot, .alarmRinging slot ∈ w.unhandled → .alarmRinging slot ∈ after.unhandled) : after.Attended := by
  intro _ slot rings
  rw [ringing] at rings
  rw [since]
  exact (attended goesOn slot rings).imp id (kept slot)

theorem attended_obeys (w after : Watch) (e : Event) (attended : w.Attended) (goesOn : w.stage ≠ .crashed)
    (obeys : after.daemon = w.daemon.obey e)
    (kept : ∀ slot, .alarmRinging slot ∈ w.stage.held → .alarmRinging slot ∈ after.stage.held) : after.Attended := by
  intro _ slot rings
  rw [obeys] at rings
  rw [unhandled, obeys]
  rcases w.daemon.obey_ringing e slot rings with posted | before
  · exact .inr (List.mem_append_right _ posted)
  · refine (attended goesOn slot before).imp id fun waits => ?_
    rcases List.mem_append.mp waits with held | queued
    · exact List.mem_append_left _ (kept slot held)
    · exact List.mem_append_right _ (List.mem_append_left _ queued)

theorem change_attended (config : Config) (w after : Watch) (change : Change config w after) (attended : w.Attended) :
    after.Attended := by
  cases change with
  | nothing => exact attended
  | posts message =>
      intro goesOn slot rings
      exact (attended goesOn slot rings).imp id fun waits => by
        rw [unhandled, post, ← List.append_assoc]
        exact List.mem_append_left _ waits
  | passes span => exact attended
  | takes since message later stage inbox =>
      exact w.attended_moves _ attended (by simp [stage]) rfl rfl (by simp [unhandled, Stage.held, stage, inbox])
  | refreshes around message stage =>
      exact w.attended_obeys _ _ attended (by simp [stage]) rfl (by simp [Stage.held, stage])
  | expires around stage => exact w.attended_obeys _ _ attended (by simp [stage]) rfl (by simp [Stage.held, stage])
  | announces slot stage => exact fun _ _ _ => .inl rfl
  | crashes slot stage => exact fun goesOn => absurd rfl goesOn
  | silences around message stage =>
      intro _ slot rings
      rw [Daemon.silenced_quiet] at rings
      cases rings
  | syncs around message stage =>
      have later : ({ w with daemon := { w.daemon with lastSync := w.now } } : Watch).Attended := attended
      exact attended_obeys _ _ ⟨around, .resync⟩ later (by simp [stage]) rfl (by simp [Stage.held, stage])
  | idles since stage inbox | skips stage | heeds stage | judges message stage | rests message stage
  | leaves since stage finished =>
      exact w.attended_moves _ attended (by simp [stage]) rfl rfl (by simp [unhandled, Stage.held, stage])

def Done (w : Watch) : Prop := w.stage = .left → w.daemon.isFinished = true

theorem change_done (config : Config) (w after : Watch) (change : Change config w after) (done : w.Done) : after.Done := by
  intro left
  cases change with
  | nothing | posts message | passes span => exact done left
  | leaves since stage finished => exact finished
  | _ => cases left

theorem start_daemon (around : Surroundings) (now : Nat) (turn : Turn) (started : Daemon.start around now = .ok turn) :
    turn.daemon = (Daemon.fresh now).obey ⟨around, .init⟩ := by
  unfold Daemon.start at started
  cases result : (Controller.initial.init around).result with
  | error failure => simp [result] at started
  | ok done =>
      simp only [result, Except.ok.injEq] at started
      rw [← started, Daemon.call, Daemon.follow_outcome]
      rfl

theorem begun_attended (around : Surroundings) (now : Nat) (turn : Turn) (started : Daemon.start around now = .ok turn) :
    (begun turn.daemon now).Attended := by
  have fresh : (begun (Daemon.fresh now) now).Attended := fun _ _ rings => by cases rings
  exact attended_obeys _ _ ⟨around, .init⟩ fresh nofun (start_daemon around now turn started) fun _ held => held

theorem alert_has_stop_coming (config : Config) (around : Surroundings) (now : Nat) (turn : Turn)
    (started : Daemon.start around now = .ok turn) (happenings : List Happening) :
    let w := (begun turn.daemon now).run config happenings
    (∀ since slot, w.stage = .waiting since → w.daemon.controller.ringing = some slot →
        w.daemon.ringingSince.isSome = true ∨ .alarmRinging slot ∈ w.daemon.inbox) ∧
      (w.stage = .left → w.daemon.controller.ringing = none ∧ w.daemon.controller.alarms.anyEnabled = false) := by
  intro w
  have attended : w.Attended := run_keeps config Attended (change_attended config) _ happenings
    (begun_attended around now turn started)
  have done : w.Done := run_keeps config Done (change_done config) _ happenings nofun
  refine ⟨fun since slot stage rings => ?_, fun left => ?_⟩
  · simpa only [unhandled, stage, Stage.held, List.nil_append] using attended (by simp [stage]) slot rings
  · simpa [Daemon.isFinished, and_comm] using done left

def atSeven (first : Bool) : Slots :=
  #v[⟨7, 0, Days.once, first⟩, ⟨7, 1, Days.once, true⟩, Alarm.default, Alarm.default]

def dawn (millis : Nat) (first : Bool) : Surroundings where
  clock := Clock.plain (LocalTime.ofParts ⟨2024, 1, 2⟩ 6 59 59 (millis * 1000000)).parts
  armFailure := none
  saved := .ok (some (Record.encode (atSeven first)))
  writeFailure := none

def turnIn (around : Surroundings) : List Happening :=
  [.receive, .refresh around, .handle around, .judge, .act around]

def atDawn : Watch := begun ((Daemon.fresh 0).obey ⟨dawn 0 true, .init⟩) 0

theorem start_succeeds (around : Surroundings) (now : Nat)
    (succeeds : (Controller.initial.init around).result.toOption.isSome = true) :
    ∃ turn, Daemon.start around now = .ok turn := by
  unfold Daemon.start
  cases result : (Controller.initial.init around).result with
  | error failure => simp [result, Except.toOption] at succeeds
  | ok done =>
      simp only [result]
      exact ⟨_, rfl⟩

def untilSeven : List Happening := [.pass 1000000000, .expiry] ++ turnIn (dawn 1000 true)

theorem seven_rings_unannounced :
    ∃ turn, Daemon.start (dawn 0 true) 0 = .ok turn ∧
      let w := (begun turn.daemon 0).run Config.default untilSeven
      w.stage = .waiting 1000000000 ∧ w.daemon.controller.ringing = some 0 ∧ w.daemon.ringingSince = none ∧
        .alarmRinging 0 ∈ w.daemon.inbox := by
  obtain ⟨turn, started⟩ := start_succeeds (dawn 0 true) 0 (by decide +kernel)
  have attended := (alert_has_stop_coming Config.default _ _ turn started untilSeven).1
  have same : begun turn.daemon 0 = atDawn := congrArg (begun · 0) (start_daemon _ _ turn started)
  rw [same] at attended
  refine ⟨turn, started, ?_⟩
  rw [same]
  have stage : (atDawn.run Config.default untilSeven).stage = .waiting 1000000000 := by decide +kernel
  have rings : (atDawn.run Config.default untilSeven).daemon.controller.ringing = some 0 := by decide +kernel
  have silent : (atDawn.run Config.default untilSeven).daemon.ringingSince = none := by decide +kernel
  exact ⟨stage, rings, silent, (attended _ 0 stage rings).resolve_left (by simp [silent])⟩

end AlarmClock.Watch
