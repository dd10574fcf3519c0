import AlarmClock.Proofs.Attended
import AlarmClock.Proofs.Punctual

set_option autoImplicit false

namespace AlarmClock.Watch

-- The daemon is about to silence an alert, and it was not asked for that in this turn.
def SilencesUnasked (w : Watch) : Prop := ∃ message, w.stage = .judged message true ∧ message ≠ some .stopRequested

-- An alarm rings all the time.
def Lasts (config : Config) : Watch → List Happening → Prop
  | w, [] => w.daemon.controller.ringing.isSome = true
  | w, h :: later => w.daemon.controller.ringing.isSome = true ∧ Lasts config (w.step config h) later

def decideLasts (config : Config) : (w : Watch) → (later : List Happening) → Decidable (Lasts config w later)
  | w, [] => inferInstanceAs (Decidable (w.daemon.controller.ringing.isSome = true))
  | w, h :: later =>
      have := decideLasts config (w.step config h) later
      inferInstanceAs (Decidable (w.daemon.controller.ringing.isSome = true ∧ Lasts config (w.step config h) later))

instance (config : Config) (w : Watch) (later : List Happening) : Decidable (Lasts config w later) :=
  decideLasts config w later

-- An older time is still there, and the alert that begins now is judged by it before it is announced: in this turn, as
-- it begins by an expiry, or in the next one, as that has another expiry to work on.
def Exposed (config : Config) (w : Watch) : Prop :=
  (∃ since, w.daemon.ringingSince = some since ∧ since < w.now) ∧ 0 < config.autoStop ∧
    (w.stage = .refreshed (some .timerExpired) ∨ w.daemon.inbox.head? = some .timerExpired)

inductive Begins (w after : Watch) (slot : Nat) : Prop where
  | byExpiry (around : Surroundings) (stage : w.stage = .refreshed (some .timerExpired))
      (step : after = ⟨w.daemon.obey ⟨around, .timerExpired⟩, .handled (some .timerExpired), w.now⟩)
  | byResync (around : Surroundings) (message : Option Message) (stage : w.stage = .judged message false)
      (step : after = ⟨{ w.daemon with lastSync := w.now }.obey ⟨around, .resync⟩, .waiting w.now, w.now⟩)
      (inbox : after.daemon.inbox = w.daemon.inbox ++ [.alarmRinging slot])

theorem reload_keeps_quiet (around : Surroundings) (c : Controller) (quiet : c.ringing = none) :
    (c.after ⟨around, .reload⟩).ringing = none := by
  cases rings : (c.after ⟨around, .reload⟩).ringing with
  | none => rfl
  | some slot =>
      rcases c.ringing_source _ slot rings with woken | ⟨-, before⟩
      · obtain ⟨next, -, -, cause⟩ := c.wake_cause ⟨around, .reload⟩ slot (by simp [woken])
        simp [Controller.MayRing] at cause
      · simp [quiet] at before

theorem change_begins (config : Config) (w after : Watch) (slot : Nat) (change : Change config w after)
    (quiet : w.daemon.controller.ringing = none) (rings : after.daemon.controller.ringing = some slot) :
    Begins w after slot := by
  cases change with
  | expires around stage => exact .byExpiry around stage rfl
  | syncs around message stage =>
      refine .byResync around message stage rfl ?_
      rcases w.daemon.controller.ringing_source ⟨around, .resync⟩ slot rings with woken | ⟨-, before⟩
      · exact congrArg (fun woken => w.daemon.inbox ++ woken.map Message.alarmRinging) woken
      · simp [quiet] at before
  | refreshes around message stage =>
      have silent : (w.daemon.controller.after ⟨around, .reload⟩).ringing = some slot := rings
      simp [reload_keeps_quiet around _ quiet] at silent
  | silences around message stage =>
      rw [Daemon.silenced_quiet] at rings
      cases rings
  | nothing | posts message | passes span | takes since message later stage inbox | idles since stage inbox
  | skips stage | announces other stage | crashes other stage | heeds stage | judges message stage
  | rests message stage | leaves since stage finished =>
      have before : w.daemon.controller.ringing = some slot := rings
      simp [quiet] at before

-- While an alert that began at `start` goes on, it is not judged by an older time.
inductive Sheltered (config : Config) (start : Nat) (w : Watch) : Prop where
  | fresh (announced : ∀ since, w.daemon.ringingSince = some since → start ≤ since)
      (waited : ∀ message, w.stage = .judged message true → message ≠ some .stopRequested →
        start + Span.ofSeconds config.autoStop ≤ w.now)
  | queued (since : Nat) (message : Message) (stage : w.stage = .waiting since)
      (first : w.daemon.inbox.head? = some message) (useful : message ≠ .timerExpired)
  | taken (message : Message) (stage : w.stage = .received (some message) ∨ w.stage = .refreshed (some message))
      (useful : message ≠ .timerExpired)
  | asked (stage : w.stage = .handled (some .stopRequested) ∨ w.stage = .judged (some .stopRequested) true)
  | crashed (stage : w.stage = .crashed)

variable {config : Config} {start : Nat} {w after : Watch}

theorem change_now (change : Change config w after) : w.now ≤ after.now := by
  cases change with
  | passes span => exact Nat.le_add_right _ _
  | _ => exact Nat.le_refl _

theorem fresh_sheltered (change : Change config w after) (order : start ≤ w.now)
    (announced : ∀ since, w.daemon.ringingSince = some since → start ≤ since)
    (waited : ∀ message, w.stage = .judged message true → message ≠ some .stopRequested →
      start + Span.ofSeconds config.autoStop ≤ w.now) : after.Sheltered config start := by
  cases change with
  | nothing => exact .fresh announced waited
  | posts message => exact .fresh announced waited
  | passes span => exact .fresh announced fun message stage unasked => Nat.le_add_right_of_le (waited message stage unasked)
  | announces slot stage => exact .fresh (fun since set => Option.some.inj set ▸ order) nofun
  | silences around message stage => exact .fresh (by simp) nofun
  | judges message stage =>
      refine .fresh announced fun other judged unasked => ?_
      obtain ⟨rfl, stops⟩ : message = other ∧
          (w.daemon.isAskedToStop message || w.daemon.isOverdue config w.now) = true := by simpa using judged
      have overdue : w.daemon.isOverdue config w.now = true := by
        simpa [Daemon.isAskedToStop, unasked] using stops
      unfold Daemon.isOverdue at overdue
      cases set : w.daemon.ringingSince with
      | none => simp [set] at overdue
      | some since =>
          simp only [set, decide_eq_true_eq] at overdue
          exact Nat.le_trans (Nat.add_le_add_right (announced since set) _) overdue
  | takes since message later stage inbox | idles since stage inbox | refreshes around message stage | skips stage
  | expires around stage | crashes slot stage | heeds stage | syncs around message stage | rests message stage
  | leaves since stage finished => exact .fresh announced (by simp)

theorem queued_sheltered (change : Change config w after) (rings : w.daemon.controller.ringing.isSome = true) (since : Nat)
    (message : Message) (stage : w.stage = .waiting since) (first : w.daemon.inbox.head? = some message)
    (useful : message ≠ .timerExpired) : after.Sheltered config start := by
  cases change with
  | nothing => exact .queued since message stage first useful
  | posts other =>
      refine .queued since message stage ?_ useful
      rw [post, List.head?_append, first, Option.some_or]
  | passes span => exact .queued since message stage first useful
  | takes since other later stage inbox =>
      obtain rfl : other = message := by simpa [inbox] using first
      exact .taken other (.inl rfl) useful
  | idles since stage inbox => simp [inbox] at first
  | leaves since stage finished => simp [Daemon.isFinished, Option.isSome_iff_ne_none.mp rings] at finished
  | refreshes _ _ other | skips other | expires _ other | announces _ other | crashes _ other | heeds other
  | judges _ other | silences _ _ other | syncs _ _ other | rests _ other => simp [other] at stage

theorem taken_sheltered (change : Change config w after) (order : start ≤ w.now) (message : Message)
    (stage : w.stage = .received (some message) ∨ w.stage = .refreshed (some message)) (useful : message ≠ .timerExpired) :
    after.Sheltered config start := by
  cases change with
  | nothing | posts other | passes span => exact .taken message stage useful
  | refreshes around other received =>
      obtain rfl : other = some message := by simpa [received] using stage
      exact .taken message (.inr rfl) useful
  | announces slot refreshed => exact .fresh (fun since set => Option.some.inj set ▸ order) nofun
  | crashes slot refreshed => exact .crashed rfl
  | heeds refreshed => exact .asked (.inl rfl)
  | expires around refreshed =>
      obtain rfl : Message.timerExpired = message := by simpa [refreshed] using stage
      exact absurd rfl useful
  | takes _ _ _ other | idles _ other | skips other | judges _ other | silences _ _ other | syncs _ _ other | rests _ other
  | leaves _ other => simp [other] at stage

theorem asked_sheltered (change : Change config w after) (rings : w.daemon.controller.ringing.isSome = true)
    (stage : w.stage = .handled (some .stopRequested) ∨ w.stage = .judged (some .stopRequested) true) :
    after.Sheltered config start := by
  cases change with
  | nothing | posts other | passes span => exact .asked stage
  | judges message handled =>
      obtain rfl : message = some .stopRequested := by simpa [handled] using stage
      refine .asked (.inr ?_)
      simp [Daemon.isAskedToStop, rings]
  | silences around message judged => exact .fresh (by simp) (by simp)
  | takes _ _ _ other | idles _ other | refreshes _ _ other | skips other | expires _ other | announces _ other
  | crashes _ other | heeds other | syncs _ _ other | rests _ other | leaves _ other => simp [other] at stage

theorem change_sheltered (change : Change config w after) (rings : w.daemon.controller.ringing.isSome = true)
    (order : start ≤ w.now) (sheltered : w.Sheltered config start) : after.Sheltered config start := by
  cases sheltered with
  | fresh announced waited => exact fresh_sheltered change order announced waited
  | queued since message stage first useful => exact queued_sheltered change rings since message stage first useful
  | taken message stage useful => exact taken_sheltered change order message stage useful
  | asked stage => exact asked_sheltered change rings stage
  | crashed stage =>
      cases change with
      | nothing | posts other | passes span => exact .crashed stage
      | takes _ _ _ other | idles _ other | refreshes _ _ other | skips other | expires _ other | announces _ other
      | crashes _ other | heeds other | judges _ other | silences _ _ other | syncs _ _ other | rests _ other
      | leaves _ other => simp [stage] at other

theorem run_sheltered (later : List Happening) (lasts : w.Lasts config later) (order : start ≤ w.now)
    (sheltered : w.Sheltered config start) : (w.run config later).Sheltered config start := by
  induction later generalizing w with
  | nil => exact sheltered
  | cons h later ih =>
      have change := w.step_change config h
      exact ih lasts.2 (Nat.le_trans order (change_now change)) (change_sheltered change lasts.1 order sheltered)

theorem sheltered_waits (sheltered : w.Sheltered config start) (silences : w.SilencesUnasked) :
    start + Span.ofSeconds config.autoStop ≤ w.now := by
  obtain ⟨message, judged, unasked⟩ := silences
  cases sheltered with
  | fresh announced waited => exact waited message judged unasked
  | queued since other stage first useful => simp [judged] at stage
  | taken other stage useful => simp [judged] at stage
  | asked stage =>
      obtain rfl : message = some .stopRequested := by simpa [judged] using stage
      exact absurd rfl unasked
  | crashed stage => simp [judged] at stage

theorem begun_sheltered (slot : Nat) (begins : Begins w after slot) (positive : 0 < config.autoStop)
    (safe : ¬ w.Exposed config) : after.Sheltered config w.now := by
  have fresh : (w.stage = .refreshed (some .timerExpired) ∨ w.daemon.inbox.head? = some .timerExpired) →
      ∀ since, w.daemon.ringingSince = some since → w.now ≤ since := by
    intro judged since set
    by_contra older
    exact safe ⟨⟨since, set, Nat.not_le.mp older⟩, positive, judged⟩
  cases begins with
  | byExpiry around stage step =>
      subst step
      exact .fresh (fresh (.inl stage)) nofun
  | byResync around message stage step inbox =>
      by_cases expiry : w.daemon.inbox.head? = some .timerExpired
      · subst step
        exact .fresh (fresh (.inr expiry)) nofun
      · cases queue : w.daemon.inbox with
        | nil =>
            refine .queued w.now (.alarmRinging slot) (by rw [step]) ?_ nofun
            rw [inbox, queue]
            rfl
        | cons first rest =>
            refine .queued w.now first (by rw [step]) ?_ fun same => expiry (by rw [queue, same]; rfl)
            rw [inbox, queue]
            rfl

theorem run_now (later : List Happening) : w.now ≤ (w.run config later).now := by
  induction later generalizing w with
  | nil => exact Nat.le_refl _
  | cons h later ih => exact Nat.le_trans (change_now (w.step_change config h)) ih

theorem expiry_silences (config : Config) (w : Watch) (since : Nat) (stage : w.stage = .handled (some .timerExpired))
    (rings : w.daemon.controller.ringing.isSome = true) (announced : w.daemon.ringingSince = some since) :
    let later := [.pass (since + Span.ofSeconds config.autoStop - w.now), .judge]
    w.Lasts config later ∧ (w.run config later).SilencesUnasked ∧
      (w.run config later).now = max w.now (since + Span.ofSeconds config.autoStop) := by
  obtain ⟨d, atStage, now⟩ := w
  obtain rfl : atStage = .handled (some .timerExpired) := stage
  obtain ⟨controller, inbox, ringingSince, lastSync⟩ := d
  obtain rfl : ringingSince = some since := announced
  have time : now + (since + Span.ofSeconds config.autoStop - now) = max now (since + Span.ofSeconds config.autoStop) := by
    omega
  refine ⟨⟨rings, rings, rings⟩, ⟨some .timerExpired, ?_, nofun⟩, time⟩
  simp only [run, List.foldl_cons, List.foldl_nil, step, time, Daemon.isAskedToStop, Daemon.isOverdue]
  simp

theorem queued_expiry_is_handled (config : Config) (around : Surroundings) (w : Watch) (since : Nat) (slot : Nat)
    (stage : w.stage = .waiting since) (rings : w.daemon.controller.ringing = some slot)
    (first : w.daemon.inbox.head? = some .timerExpired) :
    let turn := [.receive, .refresh around, .handle around]
    let after := w.run config turn
    after.stage = .handled (some .timerExpired) ∧ after.daemon.controller.ringing.isSome = true ∧
      after.daemon.ringingSince = w.daemon.ringingSince ∧ after.now = w.now ∧
      ∀ later, after.Lasts config later → w.Lasts config (turn ++ later) := by
  intro turn after
  obtain ⟨rest, inbox⟩ := List.head?_eq_some_iff.mp first
  have busy : w.daemon.isFinished = false := by simp [Daemon.isFinished, rings]
  let took : Watch := ⟨{ w.daemon with inbox := rest }, .received (some .timerExpired), w.now⟩
  let fetched : Watch := ⟨took.daemon.obey ⟨around, .reload⟩, .refreshed (some .timerExpired), w.now⟩
  let heard : Watch := ⟨fetched.daemon.obey ⟨around, .timerExpired⟩, .handled (some .timerExpired), w.now⟩
  have received : w.step config .receive = took := by
    simp only [step, stage, busy, Bool.false_eq_true, if_false, take, inbox, took]
  have refreshed : took.step config (.refresh around) = fetched := by
    simp only [step, took, Daemon.refresh_daemon, fetched]
  have handled : fetched.step config (.handle around) = heard := by
    simp only [step, fetched, Daemon.handle_expiry, if_true, heard]
  have ringsFetched : fetched.daemon.controller.ringing = some slot :=
    Controller.ringing_kept _ ⟨around, .reload⟩ slot (by simp) rings
  have ringsHeard : heard.daemon.controller.ringing = some slot :=
    Controller.ringing_kept _ ⟨around, .timerExpired⟩ slot (by simp) ringsFetched
  have same : after = heard := by
    simp only [after, turn, run, List.foldl_cons, List.foldl_nil, received, refreshed, handled]
  rw [same]
  refine ⟨rfl, by rw [ringsHeard]; rfl, rfl, rfl, fun later lasts => ?_⟩
  have goesOn : took.Lasts config ([.refresh around, .handle around] ++ later) := by
    refine ⟨by simp [took, rings], ?_⟩
    rw [refreshed]
    refine ⟨by simp [ringsFetched], ?_⟩
    rw [handled]
    exact lasts
  refine ⟨by simp [rings], ?_⟩
  rw [received]
  exact goesOn

theorem exposed_is_cut_short (slot : Nat) (begins : Begins w after slot)
    (rings : after.daemon.controller.ringing = some slot) (exposed : w.Exposed config) :
    ∃ later, after.Lasts config later ∧ (after.run config later).SilencesUnasked ∧
      (after.run config later).now < w.now + Span.ofSeconds config.autoStop := by
  obtain ⟨⟨since, announced, older⟩, positive, judged⟩ := exposed
  have short : max w.now (since + Span.ofSeconds config.autoStop) < w.now + Span.ofSeconds config.autoStop := by
    have : 0 < Span.ofSeconds config.autoStop := by simp only [Span.ofSeconds]; omega
    omega
  cases begins with
  | byExpiry around stage step =>
      obtain ⟨lasts, silences, now⟩ := expiry_silences config after since (by rw [step]) (by simp [rings])
        (by rw [step]; exact announced)
      refine ⟨_, lasts, silences, ?_⟩
      rw [now, step]
      exact short
  | byResync around message stage step inbox =>
      have first : after.daemon.inbox.head? = some .timerExpired := by
        rw [inbox, List.head?_append, judged.resolve_left (by simp [stage]), Option.some_or]
      obtain ⟨handled, goesOn, same, time, prepends⟩ :=
        queued_expiry_is_handled config around after w.now slot (by rw [step]) rings first
      obtain ⟨lasts, silences, now⟩ := expiry_silences config _ since handled goesOn
        (by rw [same, step]; exact announced)
      refine ⟨_, prepends _ lasts, ?_⟩
      rw [run_append]
      refine ⟨silences, ?_⟩
      rw [now, time, step]
      exact short

theorem auto_stop_waits_iff (config : Config) (w : Watch) (h : Happening) (slot : Nat)
    (quiet : w.daemon.controller.ringing = none) (rings : (w.step config h).daemon.controller.ringing = some slot) :
    (∀ later, (w.step config h).Lasts config later → ((w.step config h).run config later).SilencesUnasked →
        w.now + Span.ofSeconds config.autoStop ≤ ((w.step config h).run config later).now) ↔
      ¬ w.Exposed config := by
  have change := w.step_change config h
  have begins := change_begins config w _ slot change quiet rings
  refine ⟨fun waits exposed => ?_, fun safe later lasts silences => ?_⟩
  · obtain ⟨later, lasts, silences, short⟩ := exposed_is_cut_short slot begins rings exposed
    exact absurd (waits later lasts silences) (Nat.not_le.mpr short)
  · rcases Nat.eq_zero_or_pos config.autoStop with zero | positive
    · rw [zero]
      exact Nat.le_trans (change_now change) (run_now later)
    · have sheltered := run_sheltered later lasts (change_now change) (begun_sheltered slot begins positive safe)
      exact sheltered_waits sheltered silences

def brief : Config := { Config.default with autoStop := 1 }

def halfPast : Watch := begun ((Daemon.fresh 0).obey ⟨dawn 500 true, .init⟩) 0

def untilFirst : List Happening := [.pass 500000000, .expiry, .receive, .refresh (dawn 60000 true)]

theorem first_alert_is_not_cut_short :
    ∃ turn, Daemon.start (dawn 500 true) 0 = .ok turn ∧
      let w := (begun turn.daemon 0).run brief untilFirst
      let rung := w.step brief (.handle (dawn 60000 true))
      w.daemon.controller.ringing = none ∧ rung.daemon.controller.ringing = some 0 ∧
        ∀ later, rung.Lasts brief later → (rung.run brief later).SilencesUnasked →
          w.now + Span.ofSeconds brief.autoStop ≤ (rung.run brief later).now := by
  obtain ⟨turn, started⟩ := start_succeeds (dawn 500 true) 0 (by decide +kernel)
  refine ⟨turn, started, ?_⟩
  have same : begun turn.daemon 0 = halfPast := congrArg (begun · 0) (start_daemon _ _ turn started)
  rw [same]
  have quiet : (halfPast.run brief untilFirst).daemon.controller.ringing = none := by decide +kernel
  have rings :
      ((halfPast.run brief untilFirst).step brief (.handle (dawn 60000 true))).daemon.controller.ringing = some 0 := by
    decide +kernel
  have unannounced : (halfPast.run brief untilFirst).daemon.ringingSince = none := by decide +kernel
  refine ⟨quiet, rings, (auto_stop_waits_iff brief _ _ 0 quiet rings).mpr ?_⟩
  rintro ⟨⟨since, announced, -⟩, -⟩
  simp [unannounced] at announced

def untilSecond : List Happening :=
  [.pass 500000000, .expiry, .request] ++ turnIn (dawn 60000 true) ++ turnIn (dawn 60000 true) ++
    turnIn (dawn 60000 false) ++ [.pass 500000000] ++ turnIn (dawn 60500 false) ++
    [.pass 200000000, .request] ++ turnIn (dawn 60700 false) ++
    [.pass 300000000, .expiry, .receive, .refresh (dawn 61000 false)]

theorem stale_announcement_cuts_short :
    ∃ turn, Daemon.start (dawn 500 true) 0 = .ok turn ∧
      let w := (begun turn.daemon 0).run brief untilSecond
      let rung := w.step brief (.handle (dawn 61000 false))
      w.daemon.controller.ringing = none ∧ rung.daemon.controller.ringing = some 1 ∧ rung.Lasts brief [.judge] ∧
        (rung.run brief [.judge]).SilencesUnasked ∧
        ¬ w.now + Span.ofSeconds brief.autoStop ≤ (rung.run brief [.judge]).now ∧
        (rung.run brief [.judge, .act (dawn 61000 false)]).daemon.controller.ringing = none := by
  obtain ⟨turn, started⟩ := start_succeeds (dawn 500 true) 0 (by decide +kernel)
  refine ⟨turn, started, ?_⟩
  have same : begun turn.daemon 0 = halfPast := congrArg (begun · 0) (start_daemon _ _ turn started)
  rw [same]
  refine ⟨?_, ?_, ?_, ⟨some .timerExpired, ?_, nofun⟩, ?_, ?_⟩
  all_goals decide +kernel

end AlarmClock.Watch
