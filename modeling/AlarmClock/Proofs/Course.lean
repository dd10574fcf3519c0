import AlarmClock.Proofs.Call

set_option autoImplicit false

namespace AlarmClock

-- `disarms` is whether the timer still has to be disarmed. It has not when it was the timer that expired.
inductive Course where
  | keeps (after : Controller)
  | plans (prepared : Controller)
  | rings (next : NextAlarm) (disarms : Bool)
deriving DecidableEq

namespace Course

def controller (around : Surroundings) (c : Controller) : Course → Controller
  | .keeps after => after
  | .plans prepared => { prepared with next := prepared.planned around }
  | .rings next _ => { c with next := none, ringing := some next.slot }

def commands (around : Surroundings) : Course → List TimerCommand
  | .keeps _ => []
  | .plans prepared => prepared.planCommands around
  | .rings _ disarms => if disarms then [.disarm] else []

def wakes : Course → List Nat
  | .keeps _ | .plans _ => []
  | .rings next _ => [next.slot]

def effects (around : Surroundings) : Course → List Effect
  | .keeps _ => []
  | .plans prepared => (prepared.schedule around).effects
  | .rings next disarms => (if disarms then [.disarm] else []) ++ [.log (.ringing next.slot), .wake next.slot]

theorem effects_commands (around : Surroundings) (course : Course) :
    (course.effects around).filterMap Effect.command? = course.commands around := by
  cases course with
  | keeps after => rfl
  | plans prepared => exact (prepared.schedule_spec around).2.1
  | rings next disarms =>
      cases disarms with
      | true => rfl
      | false => rfl

theorem effects_wakes (around : Surroundings) (course : Course) :
    (course.effects around).filterMap Effect.woken? = course.wakes := by
  cases course with
  | keeps after => rfl
  | plans prepared => exact (prepared.schedule_spec around).2.2
  | rings next disarms =>
      cases disarms with
      | true => rfl
      | false => rfl

def Fails (around : Surroundings) (failure : Failure) : Course → Prop
  | .plans prepared => (prepared.schedule around).result = .error failure
  | .keeps _ | .rings _ _ => False

end Course

namespace Controller

def news? (around : Surroundings) (c : Controller) : Option (Bytes × Slots) :=
  match around.saved with
  | .ok (some bytes) =>
      if some bytes = c.stored then none else (Record.decode bytes).toOption.map fun slots => (bytes, slots)
  | .ok none | .error _ => none

def adopt (c : Controller) (bytes : Bytes) (slots : Slots) : Controller :=
  { c with alarms := AlarmSet.ofSlots slots, stored := some bytes }

def notice (around : Surroundings) (c : Controller) : Controller :=
  match around.saved with
  | .ok saved => { c with stored := saved }
  | .error _ => c

def switchOff (slot : Nat) (c : Controller) : Controller :=
  { c with alarms := c.alarms.edit slot (.setEnabled false) }

def silenced (slot : Nat) (c : Controller) : Controller :=
  if (c.alarms.days slot).isOnce then ({ c with ringing := none } : Controller).switchOff slot
  else { c with ringing := none }

end Controller

namespace Call

def course (around : Surroundings) (c : Controller) : Call → Course
  | .init => .plans (c.load around).controller
  | .load => .keeps (c.load around).controller
  | .reload =>
      match c.news? around with
      | none => .keeps (c.notice around)
      | some (bytes, slots) => if c.ringing.isSome then .keeps (c.adopt bytes slots) else .plans (c.adopt bytes slots)
  | .save => .keeps (c.save around).controller
  | .schedule => .plans c
  | .resync =>
      match c.ringing, c.next with
      | some _, _ => .keeps c
      | none, some next => if next.due ≤ around.clock.now then .rings next true else .plans c
      | none, none => .plans c
  | .timerExpired =>
      match c.ringing, c.next with
      | some _, _ | none, none => .keeps c
      | none, some next =>
          if Controller.expirySlack < around.clock.untilTime next.due then .plans { c with next := none }
          else .rings next false
  | .triggerNow =>
      match c.ringing, c.next with
      | some _, _ | none, none => .keeps c
      | none, some next => .rings next true
  | .stop =>
      match c.ringing with
      | none => .keeps c
      | some slot => .plans (c.silenced slot)
  | .disable slot => if c.alarms.isEnabled slot then .plans (c.switchOff slot) else .keeps c
  | .edit slot change => .keeps { c with alarms := c.alarms.edit slot change }

end Call

def Notice.refuses : Notice → Bool
  | .armFailed _ _ => true
  | _ => false

theorem replaced_refuse_nothing (slots : Slots) :
    ∀ notice ∈ AlarmSet.replacedNotices slots, notice.refuses = false := by
  intro notice present
  obtain ⟨record, -, rfl⟩ := List.mem_map.mp present
  rfl

theorem edit_refuses_nothing (slot : Nat) (change : Edit) :
    ∀ notice ∈ AlarmSet.editNotices slot change, notice.refuses = false := by
  have slotMissing : ∀ notice ∈ (if slot < slotCount then [] else [Notice.noSuchSlot slot]), notice.refuses = false := by
    by_cases inside : slot < slotCount
    · simp [inside]
    · simp [inside, Notice.refuses]
  cases change with
  | setTime hour minute =>
      simp only [AlarmSet.editNotices]
      by_cases refused : ¬ (Edit.setTime hour minute).Allowed
      · rw [if_pos refused]
        simp [Notice.refuses]
      · rw [if_neg refused]
        exact slotMissing
  | setEnabled on => exact slotMissing
  | setDays days => exact slotMissing
  | setDay day on => exact slotMissing

theorem reload_refuses_nothing (dirty : Bool) (slots : Slots) :
    ∀ notice ∈ (if dirty then [Notice.editsDropped] else []) ++ Notice.reloading :: AlarmSet.replacedNotices slots,
      notice.refuses = false := by
  have replaced := replaced_refuse_nothing slots
  cases dirty with
  | true => simpa [Notice.refuses] using replaced
  | false => simpa [Notice.refuses] using replaced

-- The outcome is the one of the course. Besides, it only logs, and it fails only where the course can not arm the timer.
structure Realizes (around : Surroundings) (c : Controller) (outcome : Outcome Reply) (course : Course) : Prop where
  controller : outcome.controller = course.controller around c
  effects : ∃ before after : List Notice, (∀ notice ∈ before ++ after, notice.refuses = false) ∧
    outcome.effects = before.map .log ++ course.effects around ++ after.map .log
  failure : ∀ failure, outcome.result = .failed failure → course.Fails around failure

namespace Realizes

variable {around : Surroundings} {c : Controller} {outcome : Outcome Reply} {course : Course}

theorem logged (notices : List Notice) (others : ∀ notice ∈ notices, notice.refuses = false)
    (realizes : Realizes around c outcome course) : Realizes around c (outcome.after (notices.map .log)) course := by
  obtain ⟨before, after, silent, effects⟩ := realizes.effects
  refine ⟨realizes.controller, ⟨notices ++ before, after, ?_, ?_⟩, realizes.failure⟩
  · rw [List.append_assoc]
    exact List.forall_mem_append.mpr ⟨others, silent⟩
  · rw [Outcome.effects_after, effects]
    simp only [List.map_append, List.append_assoc]

theorem filtered {β : Type} (f : Effect → Option β) (silent : ∀ notice, f (.log notice) = none)
    (realizes : Realizes around c outcome course) : outcome.effects.filterMap f = (course.effects around).filterMap f := by
  obtain ⟨before, after, -, effects⟩ := realizes.effects
  rw [effects, List.filterMap_append, List.filterMap_append, logs_filtered f silent, logs_filtered f silent,
    List.nil_append, List.append_nil]

end Realizes

def Reply.failure? : Reply → Option Failure
  | .failed failure => some failure
  | .done | .answer _ => none

theorem keeps_realizes (around : Surroundings) (c after : Controller) (reply : Reply) (notices : List Notice)
    (succeeds : reply.failure? = none) (others : ∀ notice ∈ notices, notice.refuses = false) :
    Realizes around c ⟨reply, after, notices.map .log⟩ (.keeps after) := by
  refine ⟨rfl, ⟨notices, [], ?_, ?_⟩, ?_⟩
  · rw [List.append_nil]
    exact others
  · simp [Course.effects]
  · intro failure failed
    obtain rfl : reply = .failed failure := failed
    cases succeeds

theorem rings_realizes (around : Surroundings) (c : Controller) (next : NextAlarm) (disarms : Bool) :
    Realizes around c ⟨.done, (Course.rings next disarms).controller around c, (Course.rings next disarms).effects around⟩
      (.rings next disarms) := by
  refine ⟨rfl, ⟨[], [], by simp, (List.append_nil _).symm⟩, ?_⟩
  intro failure failed
  cases failed

theorem schedule_realizes (around : Surroundings) (c prepared : Controller) (reply : Except Failure Unit → Reply)
    (faithful : ∀ result failure, reply result = .failed failure → result = .error failure) :
    Realizes around c ((prepared.schedule around).map reply) (.plans prepared) := by
  refine ⟨(prepared.schedule_spec around).1, ⟨[], [], by simp, (List.append_nil _).symm⟩, ?_⟩
  intro failure failed
  exact faithful _ failure failed

theorem Reply.of_unit_failed (result : Except Failure Unit) (failure : Failure) (failed : ofUnit result = .failed failure) :
    result = .error failure := by
  cases result with
  | ok done => cases failed
  | error cause => rw [Reply.failed.inj failed]

theorem Reply.of_bool_failed (yes : Bool) (result : Except Failure Unit) (failure : Failure)
    (failed : ofBool (result.map fun _ => yes) = .failed failure) : result = .error failure := by
  cases result with
  | ok done => cases failed
  | error cause => rw [Reply.failed.inj failed]

theorem load_logs (around : Surroundings) (c : Controller) :
    ∃ notices : List Notice, (∀ notice ∈ notices, notice.refuses = false) ∧ (c.load around).effects = notices.map .log := by
  unfold Controller.load
  cases around.saved with
  | error cause => exact ⟨[.savedUnreadable cause], by simp [Notice.refuses], rfl⟩
  | ok saved =>
      cases saved with
      | none => exact ⟨[.nothingSaved], by simp [Notice.refuses], rfl⟩
      | some bytes =>
          dsimp only
          cases Record.decode bytes with
          | error fault => exact ⟨[.savedFaulty fault], by simp [Notice.refuses], rfl⟩
          | ok slots => exact ⟨_, replaced_refuse_nothing slots, rfl⟩

theorem load_realizes (around : Surroundings) (c : Controller) :
    Realizes around c (Call.load.outcome around c) (Call.load.course around c) := by
  obtain ⟨notices, others, logs⟩ := load_logs around c
  have kept := keeps_realizes around c (c.load around).controller .done notices rfl others
  rw [← logs] at kept
  exact kept

theorem init_realizes (around : Surroundings) (c : Controller) :
    Realizes around c (Call.init.outcome around c) (Call.init.course around c) := by
  obtain ⟨notices, others, logs⟩ := load_logs around c
  have planned := (schedule_realizes around c (c.load around).controller .ofUnit Reply.of_unit_failed).logged notices others
  rw [← logs] at planned
  exact planned

theorem reload_realizes (around : Surroundings) (c : Controller) :
    Realizes around c (Call.reload.outcome around c) (Call.reload.course around c) := by
  simp only [Call.outcome, Call.course, Controller.reload, Controller.news?, Controller.notice]
  cases around.saved with
  | error cause => exact keeps_realizes around c c _ [.changeUncheckable cause] rfl (by simp [Notice.refuses])
  | ok saved =>
      dsimp only
      by_cases same : saved = c.stored
      · have kept : c = { c with stored := saved } := by rw [same]
        rw [if_pos same, ← kept]
        cases saved with
        | none => exact keeps_realizes around c c _ [] rfl (by simp)
        | some bytes =>
            simp only [if_pos same]
            exact keeps_realizes around c c _ [] rfl (by simp)
      · rw [if_neg same]
        cases saved with
        | none => exact keeps_realizes around c _ _ [.savedRemoved] rfl (by simp [Notice.refuses])
        | some bytes =>
            simp only [if_neg same]
            cases Record.decode bytes with
            | error fault => exact keeps_realizes around c _ _ [.changeFaulty fault] rfl (by simp [Notice.refuses])
            | ok slots =>
                simp only [Except.toOption, Option.map_some]
                have others := reload_refuses_nothing c.alarms.dirty slots
                by_cases ringing : c.ringing.isSome = true
                · rw [if_pos ringing, if_pos ringing]
                  exact keeps_realizes around c _ _ _ rfl others
                · rw [if_neg ringing, if_neg ringing]
                  exact (schedule_realizes around c (c.adopt bytes slots) _ (Reply.of_bool_failed true)).logged _ others

theorem trigger_now_realizes (around : Surroundings) (c : Controller) :
    Realizes around c (Call.triggerNow.outcome around c) (Call.triggerNow.course around c) := by
  simp only [Call.outcome, Call.course, Controller.triggerNow]
  cases ringing : c.ringing with
  | some slot => exact keeps_realizes around c c _ [] rfl (by simp)
  | none =>
      cases scheduled : c.next with
      | none => exact keeps_realizes around c c _ [.nothingToTrigger] rfl (by simp [Notice.refuses])
      | some next => exact rings_realizes around c next true

theorem resync_realizes (around : Surroundings) (c : Controller) :
    Realizes around c (Call.resync.outcome around c) (Call.resync.course around c) := by
  simp only [Call.outcome, Call.course, Controller.resync]
  cases ringing : c.ringing with
  | some slot => exact keeps_realizes around c c _ [] rfl (by simp)
  | none =>
      cases scheduled : c.next with
      | none => exact schedule_realizes around c c .ofUnit Reply.of_unit_failed
      | some next =>
          simp only [Option.isSome_none, Bool.false_eq_true, if_false]
          by_cases overdue : next.due ≤ around.clock.now
          · have rings := trigger_now_realizes around c
            simp only [Call.course, ringing, scheduled] at rings
            rw [if_pos overdue, if_pos overdue]
            exact rings.logged [.overdue next.slot] (by simp [Notice.refuses])
          · rw [if_neg overdue, if_neg overdue]
            exact schedule_realizes around c c .ofUnit Reply.of_unit_failed

theorem timer_expired_realizes (around : Surroundings) (c : Controller) :
    Realizes around c (Call.timerExpired.outcome around c) (Call.timerExpired.course around c) := by
  simp only [Call.outcome, Call.course, Controller.timerExpired]
  cases ringing : c.ringing with
  | some slot => exact keeps_realizes around c c _ [.expiredWhileRinging] rfl (by simp [Notice.refuses])
  | none =>
      cases scheduled : c.next with
      | none => exact keeps_realizes around c c _ [.expiredUnscheduled] rfl (by simp [Notice.refuses])
      | some next =>
          simp only [Option.isSome_none, Bool.false_eq_true, if_false]
          by_cases early : Controller.expirySlack < around.clock.untilTime next.due
          · rw [if_pos early, if_pos early]
            generalize ({ c with next := none, ringing := none } : Controller) = spent
            refine ⟨(spent.schedule_spec around).1, ?_, by simp⟩
            cases (spent.schedule around).result with
            | ok done => exact ⟨[.expiredEarly next.slot], [], by simp [Notice.refuses], rfl⟩
            | error failure =>
                exact ⟨[.expiredEarly next.slot], [.rearmFailed failure], by simp [Notice.refuses], rfl⟩
          · rw [if_neg early, if_neg early]
            exact rings_realizes around c next false

theorem stop_realizes (around : Surroundings) (c : Controller) :
    Realizes around c (Call.stop.outcome around c) (Call.stop.course around c) := by
  simp only [Call.outcome, Call.course, Controller.stop, Controller.silenced]
  cases ringing : c.ringing with
  | none => exact keeps_realizes around c c _ [] rfl (by simp)
  | some slot =>
      dsimp only
      have planned := fun prepared =>
        (schedule_realizes around c prepared .ofUnit Reply.of_unit_failed).logged [.stopped slot] (by simp [Notice.refuses])
      by_cases once : (c.alarms.days slot).isOnce = true
      · rw [if_pos once, if_pos once, ← Outcome.after_after]
        exact (planned _).logged _ (edit_refuses_nothing slot (.setEnabled false))
      · rw [if_neg once, if_neg once]
        exact planned _

theorem disable_realizes (around : Surroundings) (c : Controller) (slot : Nat) :
    Realizes around c ((Call.disable slot).outcome around c) ((Call.disable slot).course around c) := by
  simp only [Call.outcome, Call.course, Controller.disable]
  by_cases on : c.alarms.isEnabled slot = true
  · rw [if_pos on, if_pos on]
    exact (schedule_realizes around c _ .ofUnit Reply.of_unit_failed).logged _ (edit_refuses_nothing slot (.setEnabled false))
  · rw [if_neg on, if_neg on]
    exact keeps_realizes around c c _ [] rfl (by simp)

theorem call_realizes (around : Surroundings) (c : Controller) (call : Call) (savesNot : call ≠ .save) :
    Realizes around c (call.outcome around c) (call.course around c) := by
  cases call with
  | init => exact init_realizes around c
  | load => exact load_realizes around c
  | reload => exact reload_realizes around c
  | save => exact absurd rfl savesNot
  | schedule => exact schedule_realizes around c c .ofUnit Reply.of_unit_failed
  | resync => exact resync_realizes around c
  | timerExpired => exact timer_expired_realizes around c
  | triggerNow => exact trigger_now_realizes around c
  | stop => exact stop_realizes around c
  | disable slot => exact disable_realizes around c slot
  | edit slot change => exact keeps_realizes around c _ .done _ rfl (edit_refuses_nothing slot change)

structure Follows {α : Type} (around : Surroundings) (c : Controller) (outcome : Outcome α) (course : Course) : Prop where
  controller : outcome.controller = course.controller around c
  commands : outcome.commands = course.commands around
  wakes : outcome.wakes = course.wakes

theorem call_follows (around : Surroundings) (c : Controller) (call : Call) :
    Follows around c (call.outcome around c) (call.course around c) := by
  by_cases saves : call = .save
  · subst saves
    obtain ⟨-, -, -, noCommand, noWake⟩ := c.save_spec around
    exact ⟨rfl, noCommand, noWake⟩
  · have realizes := call_realizes around c call saves
    refine ⟨realizes.controller, ?_, ?_⟩
    · exact (realizes.filtered Effect.command? fun _ => rfl).trans (Course.effects_commands around _)
    · exact (realizes.filtered Effect.woken? fun _ => rfl).trans (Course.effects_wakes around _)

def CourseSpec (c : Controller) (call : Call) : Course → Prop
  | .keeps after =>
      after.next = c.next ∧ after.ringing = c.ringing ∧ (call = .stop → c.ringing = none) ∧
        (call = .timerExpired → c.ringing = none → c.next = none)
  | .plans prepared =>
      prepared.next = (if call = .timerExpired then none else c.next) ∧
        prepared.ringing = (if call = .stop then none else c.ringing) ∧ (call = .stop → c.ringing.isSome = true) ∧
        (call = .timerExpired → c.ringing = none)
  | .rings next disarms =>
      c.ringing = none ∧ c.next = some next ∧ call ≠ .stop ∧ (disarms = true ↔ call ≠ .timerExpired)

theorem reload_course_spec (around : Surroundings) (c : Controller) :
    CourseSpec c .reload (Call.reload.course around c) := by
  simp only [Call.course]
  cases c.news? around with
  | none =>
      unfold Controller.notice
      cases around.saved with
      | error cause => exact ⟨rfl, rfl, nofun, nofun⟩
      | ok saved => exact ⟨rfl, rfl, nofun, nofun⟩
  | some news =>
      by_cases ringing : c.ringing.isSome = true
      · simp only [if_pos ringing]
        exact ⟨rfl, rfl, nofun, nofun⟩
      · simp only [if_neg ringing]
        exact ⟨rfl, rfl, nofun, nofun⟩

theorem resync_course_spec (around : Surroundings) (c : Controller) :
    CourseSpec c .resync (Call.resync.course around c) := by
  simp only [Call.course]
  cases ringing : c.ringing with
  | some slot => exact ⟨rfl, rfl, nofun, nofun⟩
  | none =>
      cases scheduled : c.next with
      | none => exact ⟨rfl, rfl, nofun, nofun⟩
      | some next =>
          by_cases overdue : next.due ≤ around.clock.now
          · simp only [if_pos overdue]
            exact ⟨ringing, scheduled, nofun, by simp⟩
          · simp only [if_neg overdue]
            exact ⟨rfl, rfl, nofun, nofun⟩

theorem resync_acts (around : Surroundings) (c after : Controller) (quiet : c.ringing = none) :
    Call.resync.course around c ≠ .keeps after := by
  simp only [Call.course, quiet]
  cases c.next with
  | none => exact nofun
  | some next =>
      by_cases overdue : next.due ≤ around.clock.now
      · simp only [if_pos overdue]
        exact nofun
      · simp only [if_neg overdue]
        exact nofun

theorem timer_expired_course_spec (around : Surroundings) (c : Controller) :
    CourseSpec c .timerExpired (Call.timerExpired.course around c) := by
  simp only [Call.course]
  cases ringing : c.ringing with
  | some slot => exact ⟨rfl, rfl, nofun, fun _ quiet => by simp [ringing] at quiet⟩
  | none =>
      cases scheduled : c.next with
      | none => exact ⟨rfl, rfl, nofun, fun _ _ => scheduled⟩
      | some next =>
          by_cases early : Controller.expirySlack < around.clock.untilTime next.due
          · simp only [if_pos early]
            exact ⟨rfl, ringing.symm, nofun, fun _ => ringing⟩
          · simp only [if_neg early]
            exact ⟨ringing, scheduled, nofun, by simp⟩

theorem stop_course_spec (around : Surroundings) (c : Controller) :
    CourseSpec c .stop (Call.stop.course around c) := by
  simp only [Call.course]
  cases ringing : c.ringing with
  | none => exact ⟨rfl, rfl, fun _ => ringing, nofun⟩
  | some slot =>
      have next : (c.silenced slot).next = c.next ∧ (c.silenced slot).ringing = none := by
        unfold Controller.silenced
        by_cases once : (c.alarms.days slot).isOnce = true
        · rw [if_pos once]
          exact ⟨rfl, rfl⟩
        · rw [if_neg once]
          exact ⟨rfl, rfl⟩
      exact ⟨next.1, next.2, fun _ => by rw [ringing]; rfl, nofun⟩

theorem course_spec (around : Surroundings) (c : Controller) (call : Call) :
    CourseSpec c call (call.course around c) := by
  cases call with
  | init =>
      obtain ⟨next, ringing⟩ := c.load_spec around
      exact ⟨next, ringing, nofun, nofun⟩
  | load =>
      obtain ⟨next, ringing⟩ := c.load_spec around
      exact ⟨next, ringing, nofun, nofun⟩
  | reload => exact reload_course_spec around c
  | save =>
      obtain ⟨next, ringing, -⟩ := c.save_spec around
      exact ⟨next, ringing, nofun, nofun⟩
  | schedule => exact ⟨rfl, rfl, nofun, nofun⟩
  | resync => exact resync_course_spec around c
  | timerExpired => exact timer_expired_course_spec around c
  | triggerNow =>
      simp only [Call.course]
      cases ringing : c.ringing with
      | some slot => exact ⟨rfl, rfl, nofun, nofun⟩
      | none =>
          cases scheduled : c.next with
          | none => exact ⟨rfl, rfl, nofun, nofun⟩
          | some next => exact ⟨ringing, scheduled, nofun, by simp⟩
  | stop => exact stop_course_spec around c
  | disable slot =>
      simp only [Call.course]
      by_cases on : c.alarms.isEnabled slot = true
      · rw [if_pos on]
        exact ⟨rfl, rfl, nofun, nofun⟩
      · rw [if_neg on]
        exact ⟨rfl, rfl, nofun, nofun⟩
  | edit slot change => exact ⟨rfl, rfl, nofun, nofun⟩

theorem Controller.after_course (c : Controller) (e : Event) :
    c.after e = (e.call.course e.around c).controller e.around c ∧
      (e.outcome c).commands = (e.call.course e.around c).commands e.around ∧
      (e.outcome c).wakes = (e.call.course e.around c).wakes := by
  obtain ⟨controller, commands, wakes⟩ := call_follows e.around c e.call
  exact ⟨controller, commands, wakes⟩

end AlarmClock
