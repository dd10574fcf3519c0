import AlarmClock.TimerThread
import Mathlib.Data.List.Induction

set_option autoImplicit false

namespace AlarmClock

inductive TimerMove where
  | send (command : TimerCommand)
  | look
  | callBack
  | pass (span : Nat)
deriving DecidableEq

-- What came of the moves. A look that finds neither a command nor a deadline that has come is still going on.
inductive TimerEvent where
  | sent (command : TimerCommand)
  | took (command : TimerCommand) (time : Nat)
  | timedOut (time : Nat)
  | calledBack (time : Nat)
deriving DecidableEq

namespace TimerEvent

def isSend : TimerEvent → Bool
  | .sent _ => true
  | .took _ _ | .timedOut _ | .calledBack _ => false

def sent? : TimerEvent → Option TimerCommand
  | .sent command => some command
  | .took _ _ | .timedOut _ | .calledBack _ => none

def taken? : TimerEvent → Option TimerCommand
  | .took command _ => some command
  | .sent _ | .timedOut _ | .calledBack _ => none

end TimerEvent

def sentIn (history : List TimerEvent) : List TimerCommand := history.filterMap TimerEvent.sent?

def takenIn (history : List TimerEvent) : List TimerCommand := history.filterMap TimerEvent.taken?

def lastDeed? (history : List TimerEvent) : Option TimerEvent := (history.filter fun e => !e.isSend).getLast?

def Due (history : List TimerEvent) (now : Nat) : Prop :=
  ∃ before found since, history = before ++ .timedOut found :: since ∧ (∀ e ∈ since, e.isSend = true) ∧
    sentIn before = takenIn before ∧
    ∃ span taken, lastDeed? before = some (.took (.arm span) taken) ∧ taken + span ≤ found ∧ found ≤ now

theorem sent_in_append (earlier later : List TimerEvent) : sentIn (earlier ++ later) = sentIn earlier ++ sentIn later :=
  List.filterMap_append

theorem taken_in_append (earlier later : List TimerEvent) :
    takenIn (earlier ++ later) = takenIn earlier ++ takenIn later := List.filterMap_append

theorem commands_kept (history : List TimerEvent) (e : TimerEvent) (sends : e.sent? = none) (takes : e.taken? = none) :
    sentIn (history ++ [e]) = sentIn history ∧ takenIn (history ++ [e]) = takenIn history := by
  rw [sent_in_append, taken_in_append]
  simp [sentIn, takenIn, sends, takes]

theorem last_deed_sent (history : List TimerEvent) (command : TimerCommand) :
    lastDeed? (history ++ [.sent command]) = lastDeed? history := by
  rw [lastDeed?, List.filter_append]
  exact congrArg List.getLast? (List.append_nil _)

theorem last_deed_done (history : List TimerEvent) (e : TimerEvent) (deed : e.isSend = false) :
    lastDeed? (history ++ [e]) = some e := by
  have kept : [e].filter (fun e => !e.isSend) = [e] := by simp [deed]
  rw [lastDeed?, List.filter_append, kept, List.getLast?_concat]

theorem due_sent (history : List TimerEvent) (command : TimerCommand) (now : Nat) (due : Due history now) :
    Due (history ++ [.sent command]) now := by
  obtain ⟨before, found, since, rfl, sends, rest⟩ := due
  refine ⟨before, found, since ++ [.sent command], by simp, fun e present => ?_, rest⟩
  rcases List.mem_append.mp present with earlier | last
  · exact sends e earlier
  · rw [List.mem_singleton.mp last]
    rfl

theorem due_last_deed (history : List TimerEvent) (now : Nat) (due : Due history now) :
    ∃ found, lastDeed? history = some (.timedOut found) := by
  obtain ⟨before, found, since, rfl, sends, -⟩ := due
  have silent : since.filter (fun e => !e.isSend) = [] := by simpa using sends
  refine ⟨found, ?_⟩
  rw [lastDeed?, List.filter_append, List.filter_cons_of_pos rfl, silent, List.getLast?_concat]

theorem due_later (history : List TimerEvent) (now later : Nat) (order : now ≤ later) (due : Due history now) :
    Due history later := by
  obtain ⟨before, found, since, split, sends, empty, span, taken, ordered, come, past⟩ := due
  exact ⟨before, found, since, split, sends, empty, span, taken, ordered, come, Nat.le_trans past order⟩

def CallsWhenDue (history : List TimerEvent) : Prop :=
  ∀ before time after, history = before ++ .calledBack time :: after → Due before time

theorem calls_when_due_append (history : List TimerEvent) (e : TimerEvent) (calls : CallsWhenDue history)
    (last : ∀ time, e = .calledBack time → Due history time) : CallsWhenDue (history ++ [e]) := by
  intro before time after split
  rcases List.eq_nil_or_concat after with rfl | ⟨between, final, rfl⟩
  · obtain ⟨rfl, same⟩ := List.append_inj' split rfl
    exact last time (List.singleton_inj.mp same)
  · rw [List.concat_eq_append, ← List.cons_append, ← List.append_assoc] at split
    exact calls before time between (List.append_inj' split rfl).1

theorem TimerThread.look_empty (now : Nat) (timer : TimerThread) (empty : timer.commands = []) :
    timer.look now =
      if timer.deadline.any (· ≤ now) then ({ timer with deadline := none }, true) else (timer, false) := by
  unfold look
  rw [empty]
  cases timer.deadline with
  | none => rfl
  | some due =>
      by_cases come : due ≤ now
      · simp [come]
      · simp [come]

structure TimerWorker where
  timer : TimerThread
  now : Nat
  calling : Bool
  history : List TimerEvent
deriving DecidableEq

namespace TimerWorker

def fresh : TimerWorker := ⟨TimerThread.start, 0, false, []⟩

def found (w : TimerWorker) : List TimerEvent :=
  match w.timer.commands with
  | command :: _ => [.took command w.now]
  | [] => if (w.timer.look w.now).2 then [.timedOut w.now] else []

def after (w : TimerWorker) : TimerMove → TimerWorker
  | .send command =>
      match w.timer.send command with
      | .ok timer => { w with timer := timer, history := w.history ++ [.sent command] }
      | .error _ => w
  | .look =>
      if w.calling then w
      else ⟨(w.timer.look w.now).1, w.now, (w.timer.look w.now).2, w.history ++ w.found⟩
  | .callBack =>
      if w.calling then { w with calling := false, history := w.history ++ [.calledBack w.now] } else w
  | .pass span => { w with now := w.now + span }

def run (w : TimerWorker) (moves : List TimerMove) : TimerWorker := moves.foldl after w

theorem run_append (w : TimerWorker) (earlier later : List TimerMove) :
    w.run (earlier ++ later) = (w.run earlier).run later := List.foldl_append

structure Faithful (w : TimerWorker) : Prop where
  queue : w.timer.alive = true → sentIn w.history = takenIn w.history ++ w.timer.commands
  deadline : ∀ due, w.timer.deadline = some due ↔
    due < TimerThread.clockEnd ∧ ∃ span taken, lastDeed? w.history = some (.took (.arm span) taken) ∧ taken + span = due
  calls : w.calling = true → Due w.history w.now
  gone : w.timer.alive = false → w.timer.commands = [] ∧ w.timer.deadline = none ∧ w.calling = false
  callbacks : CallsWhenDue w.history

theorem fresh_faithful : fresh.Faithful where
  queue _ := rfl
  deadline due := iff_of_false nofun fun ⟨_, span, taken, ordered, _⟩ => nomatch ordered
  calls := nofun
  gone := nofun
  callbacks before time after split := by simp [fresh] at split

theorem send_faithful (w : TimerWorker) (command : TimerCommand) (faithful : w.Faithful) :
    (w.after (.send command)).Faithful := by
  cases alive : w.timer.alive with
  | false =>
      have refused : w.after (.send command) = w := by simp [after, TimerThread.send, TimerThread.failure?, alive]
      rw [refused]
      exact faithful
  | true =>
      have accepted : w.after (.send command) =
          { w with
            timer := { w.timer with commands := w.timer.commands ++ [command] }
            history := w.history ++ [.sent command] } := by
        simp [after, TimerThread.send, TimerThread.failure?, alive]
      rw [accepted]
      constructor
      · intro _
        dsimp only
        rw [sent_in_append, taken_in_append, faithful.queue alive]
        simp [sentIn, takenIn, TimerEvent.sent?, TimerEvent.taken?]
      · intro due
        dsimp only
        rw [last_deed_sent]
        exact faithful.deadline due
      · exact fun calling => due_sent _ _ _ (faithful.calls calling)
      · exact fun dead => nomatch alive.symm.trans dead
      · exact calls_when_due_append _ _ faithful.callbacks nofun

theorem take_faithful (w : TimerWorker) (command : TimerCommand) (later : List TimerCommand) (faithful : w.Faithful)
    (waits : w.timer.commands = command :: later) (quiet : w.calling = false) : (w.after .look).Faithful := by
  have alive : w.timer.alive = true := by
    by_contra dead
    exact nomatch waits.symm.trans (faithful.gone (Bool.eq_false_iff.mpr dead)).1
  have queue : sentIn (w.history ++ [.took command w.now]) = takenIn (w.history ++ [.took command w.now]) ++ later := by
    rw [sent_in_append, taken_in_append, faithful.queue alive, waits]
    simp [sentIn, takenIn, TimerEvent.sent?, TimerEvent.taken?]
  have deed := last_deed_done w.history (.took command w.now) rfl
  have callbacks := calls_when_due_append w.history (.took command w.now) faithful.callbacks nofun
  rw [after, quiet, if_neg Bool.false_ne_true]
  unfold found TimerThread.look
  rw [waits]
  cases command with
  | disarm =>
      refine ⟨fun _ => queue, fun due => iff_of_false nofun ?_, nofun, nofun, callbacks⟩
      rintro ⟨-, span, taken, ordered, -⟩
      cases deed.symm.trans ordered
  | arm span =>
      have only : ∀ due, (due < TimerThread.clockEnd ∧ ∃ other taken,
          lastDeed? (w.history ++ [.took (.arm span) w.now]) = some (.took (.arm other) taken) ∧ taken + other = due) ↔
          due < TimerThread.clockEnd ∧ w.now + span = due := by
        intro due
        rw [deed]
        constructor
        · rintro ⟨small, other, taken, ⟨⟩, sum⟩
          exact ⟨small, sum⟩
        · rintro ⟨small, sum⟩
          exact ⟨small, span, w.now, rfl, sum⟩
      by_cases holds : w.now + span < TimerThread.clockEnd
      · simp only [if_pos holds]
        refine ⟨fun _ => queue, fun due => ?_, nofun, nofun, callbacks⟩
        rw [only]
        constructor
        · rintro ⟨⟩
          exact ⟨holds, rfl⟩
        · rintro ⟨-, rfl⟩
          rfl
      · simp only [if_neg holds]
        refine ⟨nofun, fun due => ?_, nofun, fun _ => ⟨rfl, rfl, rfl⟩, callbacks⟩
        rw [only]
        exact iff_of_false nofun fun ⟨small, sum⟩ => holds (sum ▸ small)

theorem wait_faithful (w : TimerWorker) (faithful : w.Faithful) (empty : w.timer.commands = [])
    (quiet : w.calling = false) : (w.after .look).Faithful := by
  rw [after, quiet, if_neg Bool.false_ne_true]
  unfold found
  rw [w.timer.look_empty w.now empty, empty]
  cases deadline : w.timer.deadline with
  | none =>
      rw [Option.any_none, if_neg Bool.false_ne_true, if_neg Bool.false_ne_true, List.append_nil, ← quiet]
      exact faithful
  | some due =>
      by_cases come : due ≤ w.now
      · have alive : w.timer.alive = true := by
          by_contra dead
          exact nomatch deadline.symm.trans (faithful.gone (Bool.eq_false_iff.mpr dead)).2.1
        obtain ⟨-, span, taken, ordered, rfl⟩ := (faithful.deadline due).mp deadline
        have queue : sentIn w.history = takenIn w.history := by rw [faithful.queue alive, empty, List.append_nil]
        have deed := last_deed_done w.history (.timedOut w.now) rfl
        rw [Option.any_some, if_pos (decide_eq_true come), if_pos rfl]
        refine ⟨fun _ => ?_, fun due => iff_of_false nofun ?_, fun _ => ?_, ?_, ?_⟩
        · obtain ⟨sent, taken⟩ := commands_kept w.history (.timedOut w.now) rfl rfl
          exact sent.trans (queue.trans (taken.symm.trans (List.append_nil _).symm))
        · rintro ⟨-, other, time, last, -⟩
          cases deed.symm.trans last
        · exact ⟨w.history, w.now, [], rfl, nofun, queue, span, taken, ordered, come, Nat.le_refl _⟩
        · exact fun dead => nomatch alive.symm.trans dead
        · exact calls_when_due_append _ _ faithful.callbacks nofun
      · rw [Option.any_some, if_neg (by simpa using come), if_neg Bool.false_ne_true, List.append_nil, ← quiet]
        exact faithful

theorem look_faithful (w : TimerWorker) (faithful : w.Faithful) : (w.after .look).Faithful := by
  cases calling : w.calling with
  | true =>
      rw [after, calling, if_pos rfl]
      exact faithful
  | false =>
      cases waits : w.timer.commands with
      | cons command later => exact w.take_faithful command later faithful waits calling
      | nil => exact w.wait_faithful faithful waits calling

theorem call_back_faithful (w : TimerWorker) (faithful : w.Faithful) : (w.after .callBack).Faithful := by
  cases calling : w.calling with
  | false =>
      rw [after, calling, if_neg Bool.false_ne_true]
      exact faithful
  | true =>
      have due := faithful.calls calling
      have deed := last_deed_done w.history (.calledBack w.now) rfl
      rw [after, calling, if_pos rfl]
      refine ⟨fun alive => ?_, fun time => ?_, nofun, fun dead => ?_, ?_⟩
      · obtain ⟨sent, taken⟩ := commands_kept w.history (.calledBack w.now) rfl rfl
        dsimp only
        rw [sent, taken]
        exact faithful.queue alive
      · obtain ⟨found, timedOut⟩ := due_last_deed _ _ due
        dsimp only
        rw [faithful.deadline time, deed, timedOut]
        exact iff_of_false (fun ⟨_, _, _, last, _⟩ => nomatch last) fun ⟨_, _, _, last, _⟩ => nomatch last
      · obtain ⟨empty, none, -⟩ := faithful.gone dead
        exact ⟨empty, none, rfl⟩
      · refine calls_when_due_append _ _ faithful.callbacks fun time same => ?_
        cases same
        exact due

theorem pass_faithful (w : TimerWorker) (span : Nat) (faithful : w.Faithful) : (w.after (.pass span)).Faithful :=
  { faithful with calls := fun calling => due_later _ _ _ (Nat.le_add_right _ _) (faithful.calls calling) }

theorem run_faithful (moves : List TimerMove) : (fresh.run moves).Faithful := by
  induction moves using List.reverseRecOn with
  | nil => exact fresh_faithful
  | append_singleton earlier move ih =>
      rw [run_append]
      cases move with
      | send command => exact (fresh.run earlier).send_faithful command ih
      | look => exact (fresh.run earlier).look_faithful ih
      | callBack => exact (fresh.run earlier).call_back_faithful ih
      | pass span => exact (fresh.run earlier).pass_faithful span ih

theorem finds_due_iff (w : TimerWorker) (faithful : w.Faithful) :
    w.calling = false ∧ (w.after .look).calling = true ↔
      w.timer.commands = [] ∧ ∃ span taken, lastDeed? w.history = some (.took (.arm span) taken) ∧
        taken + span < TimerThread.clockEnd ∧ taken + span ≤ w.now := by
  constructor
  · rintro ⟨quiet, calls⟩
    rw [after, quiet, if_neg Bool.false_ne_true] at calls
    obtain ⟨empty, due, deadline, come⟩ := w.timer.look_fired w.now calls
    obtain ⟨small, span, taken, ordered, rfl⟩ := (faithful.deadline due).mp deadline
    exact ⟨empty, span, taken, ordered, small, come⟩
  · rintro ⟨empty, span, taken, ordered, small, come⟩
    have quiet : w.calling = false := by
      by_contra calling
      obtain ⟨found, timedOut⟩ := due_last_deed _ _ (faithful.calls (Bool.not_eq_false _ ▸ calling))
      cases ordered.symm.trans timedOut
    have deadline := (faithful.deadline _).mpr ⟨small, span, taken, ordered, rfl⟩
    refine ⟨quiet, ?_⟩
    rw [after, quiet, if_neg Bool.false_ne_true, w.timer.look_empty w.now empty, deadline, Option.any_some,
      if_pos (decide_eq_true come)]

-- Each callback obeys the last order that the worker took, which it took long enough ago and has not obeyed yet, and no
-- command waited when it looked last. The worker finds that it shall call back whenever it looks and this is so.
theorem callbacks_obey_last_command (moves : List TimerMove) :
    let w := fresh.run moves
    (∀ before time after, w.history = before ++ .calledBack time :: after →
      ∃ earlier found since, before = earlier ++ .timedOut found :: since ∧ (∀ e ∈ since, e.isSend = true) ∧
        sentIn earlier = takenIn earlier ∧
        ∃ span taken, lastDeed? earlier = some (.took (.arm span) taken) ∧ taken + span ≤ found ∧ found ≤ time) ∧
      (w.calling = false ∧ (w.after .look).calling = true ↔
        w.timer.commands = [] ∧ ∃ span taken, lastDeed? w.history = some (.took (.arm span) taken) ∧
          taken + span < TimerThread.clockEnd ∧ taken + span ≤ w.now) := by
  intro w
  have faithful := run_faithful moves
  exact ⟨faithful.callbacks, w.finds_due_iff faithful⟩

def rearmedTwice : List TimerMove :=
  [.send (.arm 50), .look, .send (.arm 20), .pass 30, .look, .pass 20, .look, .send (.arm 40), .pass 1, .callBack, .look]

def beforeCallback : List TimerEvent :=
  [.sent (.arm 50), .took (.arm 50) 0, .sent (.arm 20), .took (.arm 20) 30, .timedOut 50, .sent (.arm 40)]

theorem rearmed_timer_obeys_last :
    (fresh.run rearmedTwice).history = beforeCallback ++ .calledBack 51 :: [.took (.arm 40) 51] ∧
      ∃ earlier found since, beforeCallback = earlier ++ .timedOut found :: since ∧ sentIn earlier = takenIn earlier ∧
        ∃ span taken, lastDeed? earlier = some (.took (.arm span) taken) ∧ taken + span ≤ found ∧ found ≤ 51 := by
  have history : (fresh.run rearmedTwice).history = beforeCallback ++ .calledBack 51 :: [.took (.arm 40) 51] := by decide
  obtain ⟨earlier, found, since, split, -, rest⟩ := (callbacks_obey_last_command rearmedTwice).1 _ _ _ history
  exact ⟨history, earlier, found, since, split, rest⟩

end TimerWorker
end AlarmClock
