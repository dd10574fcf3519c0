import AlarmClock.Proofs.Course
import AlarmClock.Proofs.Soonest
import Mathlib.Data.List.Induction

set_option autoImplicit false

namespace AlarmClock.Controller

def wakes (c : Controller) : List Event → List Nat
  | [] => []
  | e :: later => (e.outcome c).wakes ++ (c.after e).wakes later

def silences (c : Controller) : List Event → Nat
  | [] => 0
  | e :: later => (if e.call = .stop ∧ c.ringing.isSome = true then 1 else 0) + (c.after e).silences later

theorem wakes_append (c : Controller) (earlier later : List Event) :
    c.wakes (earlier ++ later) = c.wakes earlier ++ (c.run earlier).wakes later := by
  induction earlier generalizing c with
  | nil => rfl
  | cons e rest ih =>
      change (e.outcome c).wakes ++ (c.after e).wakes (rest ++ later) = _
      rw [ih (c.after e), ← List.append_assoc]
      rfl

theorem step_balance (c : Controller) (e : Event) :
    (e.outcome c).wakes.length + (if c.ringing.isSome then 1 else 0) =
      (if e.call = .stop ∧ c.ringing.isSome = true then 1 else 0) + (if (c.after e).ringing.isSome then 1 else 0) := by
  obtain ⟨controller, -, wakes⟩ := c.after_course e
  have spec := course_spec e.around c e.call
  rw [controller, wakes]
  cases course : e.call.course e.around c with
  | keeps after =>
      obtain ⟨-, ringing, quietStop, -⟩ := course ▸ spec
      have noSilence : ¬ (e.call = .stop ∧ c.ringing.isSome = true) := by
        rintro ⟨stop, rings⟩
        simp [quietStop stop] at rings
      simp [Course.controller, Course.wakes, ringing, if_neg noSilence]
  | plans prepared =>
      obtain ⟨-, ringing, loudStop, -⟩ := course ▸ spec
      by_cases stop : e.call = .stop
      · simp [Course.controller, Course.wakes, ringing, stop, loudStop stop]
      · simp [Course.controller, Course.wakes, ringing, stop]
  | rings next disarms =>
      obtain ⟨quiet, -, noStop, -⟩ := course ▸ spec
      simp [Course.controller, Course.wakes, quiet]

theorem run_balance (c : Controller) (events : List Event) :
    (c.wakes events).length + (if c.ringing.isSome then 1 else 0) =
      c.silences events + (if (c.run events).ringing.isSome then 1 else 0) := by
  induction events generalizing c with
  | nil => rfl
  | cons e later ih =>
      have step := c.step_balance e
      have rest := ih (c.after e)
      change ((e.outcome c).wakes ++ (c.after e).wakes later).length + _ =
        (if e.call = .stop ∧ c.ringing.isSome = true then 1 else 0) + (c.after e).silences later +
          (if ((c.after e).run later).ringing.isSome then 1 else 0)
      rw [List.length_append]
      omega

theorem ringing_kept (c : Controller) (e : Event) (slot : Nat) (noStop : e.call ≠ .stop)
    (rings : c.ringing = some slot) : (c.after e).ringing = some slot := by
  have spec := course_spec e.around c e.call
  rw [(c.after_course e).1]
  cases course : e.call.course e.around c with
  | keeps after =>
      obtain ⟨-, ringing, -⟩ := course ▸ spec
      exact ringing.trans rings
  | plans prepared =>
      obtain ⟨-, ringing, -⟩ := course ▸ spec
      rw [if_neg noStop] at ringing
      exact ringing.trans rings
  | rings next disarms =>
      obtain ⟨quiet, -⟩ := course ▸ spec
      simp [rings] at quiet

theorem ringing_source (c : Controller) (e : Event) (slot : Nat) (rings : (c.after e).ringing = some slot) :
    (e.outcome c).wakes = [slot] ∨ (e.outcome c).wakes = [] ∧ c.ringing = some slot := by
  obtain ⟨controller, -, wakes⟩ := c.after_course e
  have spec := course_spec e.around c e.call
  rw [controller] at rings
  rw [wakes]
  cases course : e.call.course e.around c with
  | keeps after =>
      obtain ⟨-, ringing, -⟩ := course ▸ spec
      rw [course] at rings
      exact .inr ⟨rfl, ringing.symm.trans rings⟩
  | plans prepared =>
      obtain ⟨-, ringing, -⟩ := course ▸ spec
      rw [course] at rings
      have before : (if e.call = .stop then none else c.ringing) = some slot := ringing.symm.trans rings
      by_cases stop : e.call = .stop
      · simp [stop] at before
      · rw [if_neg stop] at before
        exact .inr ⟨rfl, before⟩
  | rings next disarms =>
      rw [course] at rings
      exact .inl (congrArg (fun slot => [slot]) (Option.some.inj rings))

theorem ringing_last_wake (events : List Event) (slot : Nat) (rings : (initial.run events).ringing = some slot) :
    (initial.wakes events).getLast? = some slot := by
  induction events using List.reverseRecOn generalizing slot with
  | nil => cases rings
  | append_singleton earlier e ih =>
      rw [run_append] at rings
      rw [wakes_append]
      rcases (initial.run earlier).ringing_source e slot rings with woken | ⟨silent, before⟩
      · simp [wakes, woken]
      · simpa [wakes, silent] using ih slot before

def InRange (next : Option NextAlarm) : Prop := ∀ alarm, next = some alarm → alarm.slot < slotCount

theorem planned_in_range (around : Surroundings) (c : Controller) (inRange : InRange c.next) :
    InRange (c.planned around) := by
  intro alarm chosen
  unfold planned at chosen
  cases found : c.soonest around with
  | none => simp [found] at chosen
  | some next =>
      rw [found] at chosen
      by_cases fails : around.armFailure.isSome = true
      · exact inRange alarm (by simpa [fails] using chosen)
      · obtain rfl : next = alarm := by simpa [fails] using chosen
        obtain ⟨record, access, -⟩ := find_next_slot _ _ next found
        have bound := (List.getElem?_eq_some_iff.mp access).1
        simpa using bound

theorem after_in_range (c : Controller) (e : Event) (inRange : InRange c.next) : InRange (c.after e).next := by
  have spec := course_spec e.around c e.call
  rw [(c.after_course e).1]
  cases course : e.call.course e.around c with
  | keeps after =>
      obtain ⟨next, -⟩ := course ▸ spec
      change InRange after.next
      exact next ▸ inRange
  | plans prepared =>
      obtain ⟨next, -⟩ := course ▸ spec
      apply planned_in_range e.around prepared
      rw [next]
      by_cases spent : e.call = .timerExpired
      · rw [if_pos spent]
        exact nofun
      · rw [if_neg spent]
        exact inRange
  | rings next disarms => exact nofun

theorem run_in_range (events : List Event) : InRange (initial.run events).next := by
  induction events using List.reverseRecOn with
  | nil => exact nofun
  | append_singleton earlier e ih =>
      rw [run_append]
      exact (initial.run earlier).after_in_range e ih

theorem woken_is_next (c : Controller) (e : Event) (slot : Nat) (woken : slot ∈ (e.outcome c).wakes) :
    c.ringing = none ∧ ∃ next, c.next = some next ∧ next.slot = slot := by
  have spec := course_spec e.around c e.call
  rw [(c.after_course e).2.2] at woken
  cases course : e.call.course e.around c with
  | keeps after => simp [course, Course.wakes] at woken
  | plans prepared => simp [course, Course.wakes] at woken
  | rings next disarms =>
      obtain ⟨quiet, scheduled, -⟩ := course ▸ spec
      rw [course] at woken
      exact ⟨quiet, next, scheduled, (List.mem_singleton.mp woken).symm⟩

theorem one_wake_for_each_alert (events : List Event) :
    let c := initial.run events
    (initial.wakes events).length = initial.silences events + (if c.ringing.isSome then 1 else 0) ∧
      (∀ slot, c.ringing = some slot → (initial.wakes events).getLast? = some slot) ∧
      (∀ (e : Event) slot, e.call ≠ .stop → c.ringing = some slot → (c.after e).ringing = some slot) ∧
      ∀ (e : Event), ∀ slot ∈ (e.outcome c).wakes, slot < slotCount ∧ ∃ next, c.next = some next ∧ next.slot = slot := by
  intro c
  refine ⟨initial.run_balance events, ringing_last_wake events, c.ringing_kept, fun e slot woken => ?_⟩
  obtain ⟨-, next, scheduled, rfl⟩ := c.woken_is_next e slot woken
  exact ⟨run_in_range events next scheduled, next, scheduled, rfl⟩

end AlarmClock.Controller
