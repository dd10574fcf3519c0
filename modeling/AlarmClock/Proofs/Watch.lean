import AlarmClock.Proofs.SharedBytes

set_option autoImplicit false

namespace AlarmClock

inductive Stage where
  | waiting (since : Nat)
  | received (message : Option Message)
  | refreshed (message : Option Message)
  | handled (message : Option Message)
  | judged (message : Option Message) (stops : Bool)
  | left
  | crashed
deriving DecidableEq

def Stage.held : Stage → List Message
  | .received message | .refreshed message => message.toList
  | .waiting _ | .handled _ | .judged _ _ | .left | .crashed => []

inductive Happening where
  | expiry
  | request
  | pass (span : Nat)
  | receive
  | refresh (around : Surroundings)
  | handle (around : Surroundings)
  | judge
  | act (around : Surroundings)
  | leave

namespace Daemon

def obey (d : Daemon) (e : Event) : Daemon :=
  { d with
    controller := d.controller.after e
    inbox := d.inbox ++ (e.outcome d.controller).wakes.map Message.alarmRinging }

@[simp] theorem obey_ringing_since (d : Daemon) (e : Event) : (d.obey e).ringingSince = d.ringingSince := rfl

theorem follow_outcome {α : Type} (d : Daemon) (outcome : Outcome α) :
    d.follow outcome =
      { d with
        controller := outcome.controller
        inbox := d.inbox ++ outcome.wakes.map Message.alarmRinging } := by
  have posted : outcome.wakes.map Message.alarmRinging =
      outcome.effects.filterMap fun effect => effect.woken?.map Message.alarmRinging := by
    rw [Outcome.wakes, List.map_filterMap]
  rw [posted, follow]
  congr 3
  funext effect
  cases effect <;> rfl

theorem refresh_daemon (around : Surroundings) (d : Daemon) : (d.refresh around).daemon = d.obey ⟨around, .reload⟩ := by
  have followed : (d.refresh around).daemon = d.follow (d.controller.reload around) := by
    unfold refresh
    dsimp only
    cases (d.controller.reload around).result with
    | error failure => rfl
    | ok adopted => cases adopted <;> rfl
  rw [followed, follow_outcome]
  rfl

theorem handle_expiry (config : Config) (around : Surroundings) (now : Nat) (d : Daemon) :
    d.handle config around now .timerExpired =
      ⟨d.obey ⟨around, .timerExpired⟩, [], (d.controller.timerExpired around).effects, true⟩ := by
  rw [handle, call, follow_outcome]
  rfl

theorem silence_daemon (around : Surroundings) (d : Daemon) :
    (d.silence around).daemon = ({ d with ringingSince := none }.obey ⟨around, .stop⟩).obey ⟨around, .save⟩ := by
  have followed : (d.silence around).daemon =
      let stopped := { d with ringingSince := none }.follow (d.controller.stop around)
      stopped.follow (stopped.controller.save around) := rfl
  rw [followed, follow_outcome, follow_outcome]
  rfl

theorem follow_clock_daemon (around : Surroundings) (now : Nat) (d : Daemon) :
    (d.followClock around now).daemon =
      if d.lastSync + resyncInterval ≤ now ∨ d.isStranded then { d with lastSync := now }.obey ⟨around, .resync⟩
      else d := by
  unfold followClock
  by_cases due : d.lastSync + resyncInterval ≤ now ∨ d.isStranded
  · rw [if_pos due, if_pos due, call, follow_outcome]
    rfl
  · rw [if_neg due, if_neg due]
    rfl

def work (config : Config) (around : Surroundings) (now : Nat) (received : Option Message) (d : Daemon) : Turn :=
  match received with
  | some message => d.handle config around now message
  | none => .still d

theorem turn_refreshed (config : Config) (around : Surroundings) (now : Nat) (d : Daemon) :
    let received := d.inbox.head?
    let refreshed := ({ d with inbox := d.inbox.tail }.refresh around).daemon
    let rest := (refreshed.work config around now received).andThen fun d => d.conclude config around now received
    (d.turn config around now).daemon = rest.daemon ∧ (d.turn config around now).goesOn = rest.goesOn := by
  intro received refreshed rest
  obtain ⟨-, -, goesOn⟩ := refresh_spec around { d with inbox := d.inbox.tail }
  have turns : d.turn config around now =
      (({ d with inbox := d.inbox.tail }.refresh around).andThen fun d => d.work config around now received).andThen
        fun d => d.conclude config around now received := rfl
  rw [turns, Turn.andThen, Turn.andThen, if_pos goesOn]
  simp only [rest, Turn.andThen, refreshed]
  by_cases worked : (({ d with inbox := d.inbox.tail }.refresh around).daemon.work config around now received).goesOn = true
  · simp only [if_pos worked]
    exact ⟨trivial, trivial⟩
  · simp only [if_neg worked]
    exact ⟨trivial, trivial⟩

theorem obey_ringing (d : Daemon) (e : Event) (slot : Nat) (rings : (d.obey e).controller.ringing = some slot) :
    .alarmRinging slot ∈ (d.obey e).inbox ∨ d.controller.ringing = some slot := by
  rcases d.controller.ringing_source e slot rings with woken | ⟨-, before⟩
  · refine .inl (List.mem_append_right _ ?_)
    rw [woken]
    exact List.mem_singleton_self _
  · exact .inr before

theorem silenced_quiet (around : Surroundings) (d : Daemon) :
    ((d.obey ⟨around, .stop⟩).obey ⟨around, .save⟩).controller.ringing = none := by
  have saved := ((d.controller.after ⟨around, .stop⟩).save_spec around).2.1
  have stopped : (d.controller.after ⟨around, .stop⟩).ringing = none := by
    have spec := course_spec around d.controller .stop
    rw [(d.controller.after_course ⟨around, .stop⟩).1]
    cases course : Call.stop.course around d.controller with
    | keeps after =>
        obtain ⟨-, ringing, quiet, -⟩ := course ▸ spec
        exact ringing.trans (quiet rfl)
    | plans prepared =>
        obtain ⟨-, ringing, -⟩ := course ▸ spec
        exact ringing
    | rings next disarms =>
        obtain ⟨-, -, noStop, -⟩ := course ▸ spec
        exact absurd rfl noStop
  exact saved.trans stopped

end Daemon

structure Watch where
  daemon : Daemon
  stage : Stage
  now : Nat
deriving DecidableEq

namespace Watch

def begun (d : Daemon) (now : Nat) : Watch := ⟨d, .waiting now, now⟩

def post (w : Watch) (message : Message) : Watch :=
  { w with daemon := { w.daemon with inbox := w.daemon.inbox ++ [message] } }

def take (w : Watch) (since : Nat) : Watch :=
  match w.daemon.inbox with
  | message :: later => { w with daemon := { w.daemon with inbox := later }, stage := .received (some message) }
  | [] => if since + Daemon.pollInterval ≤ w.now then { w with stage := .received none } else w

def step (config : Config) (w : Watch) : Happening → Watch
  | .expiry => w.post .timerExpired
  | .request => w.post .stopRequested
  | .pass span => { w with now := w.now + span }
  | .receive =>
      match w.stage with
      | .waiting since => if w.daemon.isFinished then w else w.take since
      | _ => w
  | .refresh around =>
      match w.stage with
      | .received message => { w with daemon := (w.daemon.refresh around).daemon, stage := .refreshed message }
      | _ => w
  | .handle around =>
      match w.stage with
      | .refreshed none => { w with stage := .handled none }
      | .refreshed (some message) =>
          let turn := w.daemon.handle config around w.now message
          { w with daemon := turn.daemon, stage := if turn.goesOn then .handled (some message) else .crashed }
      | _ => w
  | .judge =>
      match w.stage with
      | .handled message =>
          { w with stage := .judged message (w.daemon.isAskedToStop message || w.daemon.isOverdue config w.now) }
      | _ => w
  | .act around =>
      match w.stage with
      | .judged _ stops =>
          let turn := if stops then w.daemon.silence around else w.daemon.followClock around w.now
          { w with daemon := turn.daemon, stage := .waiting w.now }
      | _ => w
  | .leave =>
      match w.stage with
      | .waiting _ => if w.daemon.isFinished then { w with stage := .left } else w
      | _ => w

def run (config : Config) (w : Watch) (happenings : List Happening) : Watch := happenings.foldl (step config) w

theorem run_append (config : Config) (w : Watch) (earlier later : List Happening) :
    w.run config (earlier ++ later) = (w.run config earlier).run config later := List.foldl_append

theorem take_ready (w : Watch) (since : Nat) (ready : w.daemon.inbox ≠ [] ∨ since + Daemon.pollInterval ≤ w.now) :
    w.take since = ⟨{ w.daemon with inbox := w.daemon.inbox.tail }, .received w.daemon.inbox.head?, w.now⟩ := by
  obtain ⟨⟨controller, inbox, ringingSince, lastSync⟩, stage, now⟩ := w
  cases inbox with
  | cons message later => rfl
  | nil => exact if_pos (ready.resolve_left (absurd rfl))

theorem finish_turn (config : Config) (around : Surroundings) (message : Option Message) (d : Daemon) (now : Nat) :
    run config ⟨d, .handled message, now⟩ [.judge, .act around] =
        ⟨(d.conclude config around now message).daemon, .waiting now, now⟩ ∧
      (d.conclude config around now message).goesOn = true := by
  simp only [run, List.foldl_cons, List.foldl_nil, step, Daemon.conclude]
  by_cases stops : (d.isAskedToStop message || d.isOverdue config now) = true
  · simp only [if_pos stops]
    exact ⟨trivial, rfl⟩
  · simp only [if_neg stops, Daemon.followClock]
    by_cases due : d.lastSync + Daemon.resyncInterval ≤ now ∨ d.isStranded
    · simp only [if_pos due]
      exact ⟨trivial, rfl⟩
    · simp only [if_neg due]
      exact ⟨trivial, rfl⟩

theorem handle_turn (config : Config) (around : Surroundings) (message : Option Message) (d : Daemon) (now : Nat) :
    let turn := (d.work config around now message).andThen fun d => d.conclude config around now message
    run config ⟨d, .refreshed message, now⟩ [.handle around, .judge, .act around] =
      ⟨turn.daemon, if turn.goesOn then .waiting now else .crashed, now⟩ := by
  intro turn
  have handled : step config ⟨d, .refreshed message, now⟩ (.handle around) =
      ⟨(d.work config around now message).daemon,
        if (d.work config around now message).goesOn then .handled message else .crashed, now⟩ := by
    cases message with
    | none => rfl
    | some message => rfl
  have first : run config ⟨d, .refreshed message, now⟩ [.handle around, .judge, .act around] =
      (step config ⟨d, .refreshed message, now⟩ (.handle around)).run config [.judge, .act around] := rfl
  rw [first, handled]
  by_cases goesOn : (d.work config around now message).goesOn = true
  · obtain ⟨finished, on⟩ := finish_turn config around message (d.work config around now message).daemon now
    simp only [turn, Turn.andThen, if_pos goesOn, finished, on, if_true]
  · simp only [turn, Turn.andThen, if_neg goesOn]
    rfl

theorem run_turn (config : Config) (around : Surroundings) (w : Watch) (since : Nat) (stage : w.stage = .waiting since)
    (busy : w.daemon.isFinished = false) (ready : w.daemon.inbox ≠ [] ∨ since + Daemon.pollInterval ≤ w.now) :
    let turn := w.daemon.turn config around w.now
    w.run config [.receive, .refresh around, .handle around, .judge, .act around] =
      ⟨turn.daemon, if turn.goesOn then .waiting w.now else .crashed, w.now⟩ := by
  intro turn
  have received : w.step config .receive =
      ⟨{ w.daemon with inbox := w.daemon.inbox.tail }, .received w.daemon.inbox.head?, w.now⟩ := by
    simp only [step, stage, busy, Bool.false_eq_true, if_false, w.take_ready since ready]
  have first : w.run config [.receive, .refresh around, .handle around, .judge, .act around] =
      (((w.step config .receive).step config (.refresh around)).run config [.handle around, .judge, .act around]) := rfl
  obtain ⟨daemon, goesOn⟩ := w.daemon.turn_refreshed config around w.now
  rw [first, received]
  simp only [step, handle_turn, turn, daemon, goesOn]

inductive Change (config : Config) (w : Watch) : Watch → Prop where
  | nothing : Change config w w
  | posts (message : Message) : Change config w (w.post message)
  | passes (span : Nat) : Change config w { w with now := w.now + span }
  | takes (since : Nat) (message : Message) (later : List Message) (stage : w.stage = .waiting since)
      (inbox : w.daemon.inbox = message :: later) :
      Change config w ⟨{ w.daemon with inbox := later }, .received (some message), w.now⟩
  | idles (since : Nat) (stage : w.stage = .waiting since) (inbox : w.daemon.inbox = []) :
      Change config w { w with stage := .received none }
  | refreshes (around : Surroundings) (message : Option Message) (stage : w.stage = .received message) :
      Change config w ⟨w.daemon.obey ⟨around, .reload⟩, .refreshed message, w.now⟩
  | skips (stage : w.stage = .refreshed none) : Change config w { w with stage := .handled none }
  | expires (around : Surroundings) (stage : w.stage = .refreshed (some .timerExpired)) :
      Change config w ⟨w.daemon.obey ⟨around, .timerExpired⟩, .handled (some .timerExpired), w.now⟩
  | announces (slot : Nat) (stage : w.stage = .refreshed (some (.alarmRinging slot))) :
      Change config w ⟨{ w.daemon with ringingSince := some w.now }, .handled (some (.alarmRinging slot)), w.now⟩
  | crashes (slot : Nat) (stage : w.stage = .refreshed (some (.alarmRinging slot))) :
      Change config w { w with stage := .crashed }
  | heeds (stage : w.stage = .refreshed (some .stopRequested)) :
      Change config w { w with stage := .handled (some .stopRequested) }
  | judges (message : Option Message) (stage : w.stage = .handled message) :
      Change config w
        { w with stage := .judged message (w.daemon.isAskedToStop message || w.daemon.isOverdue config w.now) }
  | silences (around : Surroundings) (message : Option Message) (stage : w.stage = .judged message true) :
      Change config w
        ⟨({ w.daemon with ringingSince := none }.obey ⟨around, .stop⟩).obey ⟨around, .save⟩, .waiting w.now, w.now⟩
  | syncs (around : Surroundings) (message : Option Message) (stage : w.stage = .judged message false) :
      Change config w ⟨{ w.daemon with lastSync := w.now }.obey ⟨around, .resync⟩, .waiting w.now, w.now⟩
  | rests (message : Option Message) (stage : w.stage = .judged message false) :
      Change config w { w with stage := .waiting w.now }
  | leaves (since : Nat) (stage : w.stage = .waiting since) (finished : w.daemon.isFinished = true) :
      Change config w { w with stage := .left }

theorem take_change (config : Config) (w : Watch) (since : Nat) (stage : w.stage = .waiting since) :
    Change config w (w.take since) := by
  unfold take
  cases inbox : w.daemon.inbox with
  | cons message later => exact .takes since message later stage inbox
  | nil =>
      by_cases waited : since + Daemon.pollInterval ≤ w.now
      · simp only [if_pos waited]
        exact .idles since stage inbox
      · simp only [if_neg waited]
        exact .nothing

theorem handle_change (config : Config) (around : Surroundings) (w : Watch) (message : Message)
    (stage : w.stage = .refreshed (some message)) : Change config w (w.step config (.handle around)) := by
  simp only [step, stage]
  cases message with
  | timerExpired =>
      rw [w.daemon.handle_expiry]
      exact .expires around stage
  | stopRequested => exact .heeds stage
  | alarmRinging slot =>
      rw [Daemon.handle]
      cases ((w.daemon.controller.alarms.get? slot).getD Alarm.default).timeText? config.timeFormat with
      | some time => exact .announces slot stage
      | none => exact .crashes slot stage

theorem act_change (config : Config) (around : Surroundings) (w : Watch) (message : Option Message) (stops : Bool)
    (stage : w.stage = .judged message stops) : Change config w (w.step config (.act around)) := by
  simp only [step, stage]
  cases stops with
  | true =>
      simp only [if_true, w.daemon.silence_daemon]
      exact .silences around message stage
  | false =>
      simp only [Bool.false_eq_true, if_false, w.daemon.follow_clock_daemon]
      by_cases due : w.daemon.lastSync + Daemon.resyncInterval ≤ w.now ∨ w.daemon.isStranded
      · rw [if_pos due]
        exact .syncs around message stage
      · rw [if_neg due]
        exact .rests message stage

theorem step_change (config : Config) (w : Watch) (h : Happening) : Change config w (w.step config h) := by
  cases h with
  | expiry => exact .posts .timerExpired
  | request => exact .posts .stopRequested
  | pass span => exact .passes span
  | receive =>
      cases stage : w.stage with
      | waiting since =>
          simp only [step, stage]
          by_cases finished : w.daemon.isFinished = true
          · rw [if_pos finished]
            exact .nothing
          · rw [if_neg finished]
            exact w.take_change config since stage
      | _ => simpa only [step, stage] using .nothing
  | refresh around =>
      cases stage : w.stage with
      | received message =>
          simp only [step, stage, w.daemon.refresh_daemon]
          exact .refreshes around message stage
      | _ => simpa only [step, stage] using .nothing
  | handle around =>
      cases stage : w.stage with
      | refreshed message =>
          cases message with
          | some message => exact w.handle_change config around message stage
          | none =>
              simp only [step, stage]
              exact .skips stage
      | _ => simpa only [step, stage] using .nothing
  | judge =>
      cases stage : w.stage with
      | handled message =>
          simp only [step, stage]
          exact .judges message stage
      | _ => simpa only [step, stage] using .nothing
  | act around =>
      cases stage : w.stage with
      | judged message stops => exact w.act_change config around message stops stage
      | _ => simpa only [step, stage] using .nothing
  | leave =>
      cases stage : w.stage with
      | waiting since =>
          simp only [step, stage]
          by_cases finished : w.daemon.isFinished = true
          · rw [if_pos finished]
            exact .leaves since stage finished
          · rw [if_neg finished]
            exact .nothing
      | _ => simpa only [step, stage] using .nothing

theorem run_keeps (config : Config) (Kept : Watch → Prop)
    (change : ∀ w after, Change config w after → Kept w → Kept after) (w : Watch) (happenings : List Happening)
    (kept : Kept w) : Kept (w.run config happenings) := by
  induction happenings generalizing w with
  | nil => exact kept
  | cons h later ih => exact ih _ (change w _ (w.step_change config h) kept)

end Watch
end AlarmClock
