import AlarmClock.Proofs.Course
import Mathlib.Data.List.Induction
import Mathlib.Tactic.Tauto

set_option autoImplicit false

namespace AlarmClock

structure TimedController where
  controller : Controller
  pending : Option Nat

namespace TimedController

def fresh : TimedController := ⟨Controller.initial, none⟩

def Happens (s : TimedController) (e : Event) : Prop := e.call = .timerExpired → s.pending.isSome = true

instance (s : TimedController) (e : Event) : Decidable (s.Happens e) := inferInstanceAs (Decidable (_ → _))

def after (s : TimedController) (e : Event) : TimedController :=
  if s.Happens e then
    ⟨s.controller.after e,
      heldAfter (if e.call = .timerExpired then none else s.pending) (e.outcome s.controller).commands⟩
  else s

def commandsOf (s : TimedController) (e : Event) : List TimerCommand :=
  if s.Happens e then (e.outcome s.controller).commands else []

def run (s : TimedController) (events : List Event) : TimedController := events.foldl after s

def commands (s : TimedController) : List Event → List TimerCommand
  | [] => []
  | e :: later => s.commandsOf e ++ (s.after e).commands later

def Consistent (s : TimedController) : Prop := s.controller.next.isSome = true ↔ s.pending.isSome = true

instance (s : TimedController) : Decidable s.Consistent := inferInstanceAs (Decidable (_ ↔ _))

-- A deadline comes while an alarm rings.
def Misses (s : TimedController) (e : Event) : Prop :=
  e.call = .timerExpired ∧ s.pending.isSome = true ∧ s.controller.ringing.isSome = true

-- A deadline came while an alarm was ringing, and the timer has had no command since.
def Missed (events : List Event) : Prop :=
  ∃ earlier e later, events = earlier ++ e :: later ∧ (fresh.run earlier).Misses e ∧
    (fresh.run (earlier ++ [e])).commands later = []

theorem run_append (s : TimedController) (earlier later : List Event) :
    s.run (earlier ++ later) = (s.run earlier).run later := List.foldl_append

theorem commands_append (s : TimedController) (earlier later : List Event) :
    s.commands (earlier ++ later) = s.commands earlier ++ (s.run earlier).commands later := by
  induction earlier generalizing s with
  | nil => rfl
  | cons e rest ih =>
      change s.commandsOf e ++ (s.after e).commands (rest ++ later) = _
      rw [ih (s.after e), ← List.append_assoc]
      rfl

theorem commands_singleton (s : TimedController) (e : Event) : s.commands [e] = s.commandsOf e :=
  List.append_nil _

theorem missed_append (events : List Event) (e : Event) :
    Missed (events ++ [e]) ↔ (fresh.run events).Misses e ∨ Missed events ∧ (fresh.run events).commandsOf e = [] := by
  constructor
  · rintro ⟨earlier, miss, later, split, misses, silent⟩
    rcases List.eq_nil_or_concat later with rfl | ⟨between, last, rfl⟩
    · obtain ⟨rfl, same⟩ := List.append_inj' split rfl
      obtain rfl := List.singleton_inj.mp same
      exact .inl misses
    · rw [List.concat_eq_append] at split silent
      rw [← List.cons_append, ← List.append_assoc] at split
      obtain ⟨rfl, same⟩ := List.append_inj' split rfl
      obtain rfl := List.singleton_inj.mp same
      rw [commands_append, List.append_eq_nil_iff, commands_singleton, ← run_append, List.append_assoc,
        List.singleton_append] at silent
      exact .inr ⟨⟨earlier, miss, between, rfl, misses, silent.1⟩, silent.2⟩
  · rintro (misses | ⟨⟨earlier, miss, later, rfl, misses, silent⟩, last⟩)
    · exact ⟨events, e, [], rfl, misses, rfl⟩
    · refine ⟨earlier, miss, later ++ [e], by simp, misses, ?_⟩
      rw [commands_append, silent, commands_singleton, ← run_append, List.append_assoc, List.singleton_append, last]
      rfl

def Sound (s : TimedController) : Prop := s.pending.isSome = true → s.controller.next.isSome = true

theorem after_consistent (s : TimedController) (e : Event) (sound : s.Sound) (happens : s.Happens e) :
    (s.after e).Sound ∧ ((s.after e).Consistent ↔ ¬ s.Misses e ∧ (s.commandsOf e ≠ [] ∨ s.Consistent)) := by
  obtain ⟨controller, commands, -⟩ := s.controller.after_course e
  have spec := course_spec e.around s.controller e.call
  rw [after, commandsOf, if_pos happens, if_pos happens, commands]
  unfold Sound at sound ⊢
  unfold Consistent Misses
  rw [controller]
  cases course : e.call.course e.around s.controller with
  | keeps after =>
      obtain ⟨next, -, -, heard⟩ := course ▸ spec
      simp only [Course.controller, Course.commands, heldAfter, List.foldl_nil, next]
      by_cases expiry : e.call = .timerExpired
      · have pending := happens expiry
        have scheduled := sound pending
        have ringing : s.controller.ringing.isSome = true := by
          cases quiet : s.controller.ringing with
          | some slot => rfl
          | none => simp [heard expiry quiet] at scheduled
        simp [expiry, pending, scheduled, ringing]
      · simpa [expiry] using sound
  | plans prepared =>
      obtain ⟨next, -, -, quietExpiry⟩ := course ▸ spec
      have heard : ¬ (e.call = .timerExpired ∧ s.pending.isSome = true ∧ s.controller.ringing.isSome = true) := by
        rintro ⟨expiry, -, ringing⟩
        simp [quietExpiry expiry] at ringing
      simp only [Course.controller, Course.commands]
      rcases prepared.plan_held e.around (if e.call = .timerExpired then none else s.pending) with ⟨told, held⟩ | ⟨silent, kept⟩
      · exact ⟨held.mpr, iff_of_true held ⟨heard, .inl told⟩⟩
      · rw [silent, kept, next]
        by_cases expiry : e.call = .timerExpired
        · have pending := happens expiry
          simp [expiry, heldAfter, pending, sound pending, quietExpiry expiry]
        · simpa [expiry, heldAfter] using sound
  | rings next disarms =>
      obtain ⟨quiet, scheduled, -, disarmed⟩ := course ▸ spec
      by_cases expiry : e.call = .timerExpired
      · have kept : disarms = false := by simpa [expiry] using disarmed
        simp [Course.controller, Course.commands, heldAfter, expiry, kept, happens expiry, scheduled, quiet]
      · have told : disarms = true := disarmed.mpr expiry
        simp [Course.controller, Course.commands, heldAfter, TimerCommand.deadline?, expiry, told]

theorem run_consistent (events : List Event) :
    (fresh.run events).Sound ∧ ((fresh.run events).Consistent ↔ ¬ Missed events) := by
  induction events using List.reverseRecOn with
  | nil =>
      refine ⟨nofun, iff_of_true Iff.rfl ?_⟩
      rintro ⟨earlier, e, later, split, -⟩
      simp at split
  | append_singleton earlier e ih =>
      obtain ⟨sound, consistent⟩ := ih
      rw [run_append]
      change ((fresh.run earlier).after e).Sound ∧ (((fresh.run earlier).after e).Consistent ↔ _)
      rw [missed_append]
      by_cases happens : (fresh.run earlier).Happens e
      · obtain ⟨keepsSound, step⟩ := (fresh.run earlier).after_consistent e sound happens
        refine ⟨keepsSound, step.trans ?_⟩
        rw [consistent]
        tauto
      · have skipped : (fresh.run earlier).after e = fresh.run earlier := if_neg happens
        have silent : (fresh.run earlier).commandsOf e = [] := if_neg happens
        have heard : ¬ (fresh.run earlier).Misses e := fun misses => happens fun _ => misses.2.1
        rw [skipped]
        exact ⟨sound, by simp [consistent, silent, heard]⟩

theorem status_armed_iff (c : Controller) :
    (∃ next, c.status = .armed next) ↔ c.next.isSome = true ∧ c.ringing = none := by
  unfold Controller.status
  cases c.ringing with
  | some slot => simp
  | none =>
      cases c.next with
      | none => simp
      | some next => simp

-- The exact condition for `next` to tell whether the timer holds a deadline, and for the status to name one that
-- the timer does not hold.
theorem next_tells_deadline_iff (events : List Event) :
    ((fresh.run events).Consistent ↔ ¬ Missed events) ∧
      ((∃ next, (fresh.run events).controller.status = .armed next) ∧ (fresh.run events).pending = none ↔
        Missed events ∧ (fresh.run events).controller.ringing = none) := by
  obtain ⟨sound, consistent⟩ := run_consistent events
  refine ⟨consistent, ?_⟩
  rw [status_armed_iff, ← not_iff_comm.mp consistent.symm]
  unfold Consistent
  unfold Sound at sound
  cases pending : (fresh.run events).pending with
  | none => simp [Option.isSome_iff_ne_none]
  | some span =>
      have scheduled := sound (by rw [pending]; rfl)
      simp [scheduled]

def missedDeadline : List Event :=
  let at8 : Surroundings := ⟨Clock.plain ⟨⟨2024, 1, 2⟩, 8, 0, 0, 0⟩, none, .ok none, none⟩
  let at9 : Surroundings := { at8 with clock := Clock.plain ⟨⟨2024, 1, 2⟩, 9, 0, 0, 0⟩ }
  let broken : Surroundings := { at9 with armFailure := some (.timer "out of timers") }
  [⟨at8, .edit 0 (.setTime 9 0)⟩, ⟨at8, .edit 0 (.setDays Days.daily)⟩, ⟨at8, .edit 0 (.setEnabled true)⟩,
    ⟨at8, .schedule⟩, ⟨at8, .triggerNow⟩, ⟨at8, .schedule⟩, ⟨at9, .timerExpired⟩, ⟨broken, .stop⟩]

theorem armed_without_deadline :
    ¬ (fresh.run missedDeadline).Consistent ∧
      (fresh.run missedDeadline).controller.status = .armed ⟨0, LocalTime.ofParts ⟨2024, 1, 2⟩ 9 0 0 0⟩ ∧
      (fresh.run missedDeadline).pending = none := by
  decide

end TimedController
end AlarmClock
