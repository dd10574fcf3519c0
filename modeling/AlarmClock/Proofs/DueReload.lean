import AlarmClock.Proofs.Slots
import AlarmClock.Proofs.Soonest

set_option autoImplicit false

namespace AlarmClock.Controller

def found? (around : Surroundings) (c : Controller) : Option (Option NextAlarm) :=
  (c.news? around).map fun (_, slots) => findNext (AlarmSet.ofSlots slots).slots.toList around.clock.now

-- A reload leaves `next` if nothing can be taken over, or if the timer can not be armed for what was found.
def KeepsNext (around : Surroundings) (c : Controller) : Prop :=
  c.found? around = none ∨ around.armFailure.isSome = true ∧ ∃ next, c.found? around = some (some next)

-- A reload arms the timer for a later time of the same slot.
def Defers (around : Surroundings) (c : Controller) (slot : Nat) (due : LocalTime) : Prop :=
  around.armFailure = none ∧ c.found? around = some (some ⟨slot, due⟩)

theorem reload_next (around : Surroundings) (c : Controller) (quiet : c.ringing = none) :
    (c.after ⟨around, .reload⟩).ringing = none ∧
      (c.after ⟨around, .reload⟩).next =
        match c.found? around with
        | none => c.next
        | some none => none
        | some (some next) => if around.armFailure.isSome then c.next else some next := by
  rw [(c.after_course ⟨around, .reload⟩).1]
  simp only [Call.course, found?, quiet]
  cases c.news? around with
  | none =>
      unfold notice
      cases around.saved with
      | error cause => exact ⟨quiet, rfl⟩
      | ok saved => exact ⟨quiet, rfl⟩
  | some news =>
      refine ⟨quiet, ?_⟩
      simp only [Option.isSome_none, Bool.false_eq_true, if_false, Course.controller, planned, soonest, adopt,
        Option.map_some]
      cases findNext (AlarmSet.ofSlots news.2).slots.toList around.clock.now with
      | none => rfl
      | some next => rfl

-- `ready` tells the due times at which the call makes the next alarm ring.
theorem after_rings_iff (c : Controller) (e : Event) (slot : Nat) (ready : LocalTime → Prop) (quiet : c.ringing = none)
    (course : ∀ next, c.next = some next →
      (ready next.due ↔ ∃ disarms, e.call.course e.around c = .rings next disarms)) :
    (c.after e).ringing = some slot ↔ ∃ due, c.next = some ⟨slot, due⟩ ∧ ready due := by
  have spec := course_spec e.around c e.call
  have waits : (∀ next disarms, e.call.course e.around c ≠ .rings next disarms) →
      ¬ ∃ due, c.next = some ⟨slot, due⟩ ∧ ready due := by
    rintro quietCourse ⟨due, scheduled, isReady⟩
    obtain ⟨disarms, rings⟩ := (course _ scheduled).mp isReady
    exact quietCourse _ disarms rings
  rw [(c.after_course e).1]
  cases taken : e.call.course e.around c with
  | keeps after =>
      obtain ⟨-, ringing, -⟩ := taken ▸ spec
      exact iff_of_false (by simp [Course.controller, ringing, quiet]) (waits (by rw [taken]; rintro _ _ ⟨⟩))
  | plans prepared =>
      obtain ⟨-, ringing, -⟩ := taken ▸ spec
      exact iff_of_false (by simp [Course.controller, ringing, quiet]) (waits (by rw [taken]; rintro _ _ ⟨⟩))
  | rings next disarms =>
      obtain ⟨-, scheduled, -⟩ := taken ▸ spec
      have isReady : ready next.due := (course next scheduled).mpr ⟨disarms, taken⟩
      constructor
      · intro same
        obtain rfl := Option.some.inj same
        exact ⟨next.due, scheduled, isReady⟩
      · rintro ⟨due, again, -⟩
        obtain rfl := Option.some.inj (scheduled.symm.trans again)
        rfl

theorem resync_rings_iff (around : Surroundings) (c : Controller) (slot : Nat) (quiet : c.ringing = none) :
    (c.after ⟨around, .resync⟩).ringing = some slot ↔ ∃ due, c.next = some ⟨slot, due⟩ ∧ due ≤ around.clock.now := by
  refine c.after_rings_iff ⟨around, .resync⟩ slot (· ≤ around.clock.now) quiet fun next scheduled => ?_
  simp only [Call.course, quiet, scheduled]
  by_cases overdue : next.due ≤ around.clock.now
  · simp [overdue]
  · simp [overdue]

theorem expiry_rings_iff (around : Surroundings) (c : Controller) (slot : Nat) (quiet : c.ringing = none) :
    (c.after ⟨around, .timerExpired⟩).ringing = some slot ↔
      ∃ due, c.next = some ⟨slot, due⟩ ∧ around.clock.untilTime due ≤ expirySlack := by
  refine c.after_rings_iff ⟨around, .timerExpired⟩ slot (around.clock.untilTime · ≤ expirySlack) quiet
    fun next scheduled => ?_
  simp only [Call.course, quiet, scheduled]
  by_cases early : expirySlack < around.clock.untilTime next.due
  · simp [early, Nat.not_le.mpr early]
  · simp [early, Nat.not_lt.mp early]

theorem reload_slot_iff (around : Surroundings) (c : Controller) (next : NextAlarm) (due : LocalTime)
    (quiet : c.ringing = none) (scheduled : c.next = some next) :
    (c.after ⟨around, .reload⟩).next = some ⟨next.slot, due⟩ ↔
      c.KeepsNext around ∧ next.due = due ∨ c.Defers around next.slot due := by
  rw [(c.reload_next around quiet).2]
  unfold KeepsNext Defers
  obtain ⟨slot, time⟩ := next
  cases c.found? around with
  | none => simp [scheduled]
  | some found =>
      cases found with
      | none => simp
      | some other =>
          cases around.armFailure with
          | none => simp
          | some failure => simp [scheduled]

theorem defers_later (around : Surroundings) (c : Controller) (slot : Nat) (due : LocalTime)
    (defers : c.Defers around slot due) : around.clock.now < due := by
  obtain ⟨news, -, found⟩ := Option.map_eq_some_iff.mp defers.2
  exact find_next_later _ around.clock.now ⟨slot, due⟩ (AlarmSet.timed_of_slots news.2) found

-- The exact conditions for a reload to leave the alarm that is due to the call that would make it ring.
theorem due_alarm_rings_iff (around later : Surroundings) (c : Controller) (next : NextAlarm) (quiet : c.ringing = none)
    (scheduled : c.next = some next) (due : next.due ≤ later.clock.now) :
    ((c.run [⟨around, .reload⟩, ⟨later, .resync⟩]).ringing = some next.slot ↔
        c.KeepsNext around ∨ ∃ time, c.Defers around next.slot time ∧ time ≤ later.clock.now) ∧
      ((c.run [⟨around, .reload⟩, ⟨later, .timerExpired⟩]).ringing = some next.slot ↔
        c.KeepsNext around ∧ later.clock.untilTime next.due ≤ expirySlack ∨
          ∃ time, c.Defers around next.slot time ∧ later.clock.untilTime time ≤ expirySlack) ∧
      (later.clock.now ≤ around.clock.now →
        ((c.run [⟨around, .reload⟩, ⟨later, .resync⟩]).ringing = some next.slot ↔ c.KeepsNext around)) := by
  have before := (c.reload_next around quiet).1
  have resync : (c.run [⟨around, .reload⟩, ⟨later, .resync⟩]).ringing = some next.slot ↔
      c.KeepsNext around ∨ ∃ time, c.Defers around next.slot time ∧ time ≤ later.clock.now := by
    change ((c.after ⟨around, .reload⟩).after ⟨later, .resync⟩).ringing = _ ↔ _
    rw [resync_rings_iff later _ next.slot before]
    simp only [c.reload_slot_iff around next _ quiet scheduled]
    constructor
    · rintro ⟨time, ⟨keeps, -⟩ | defers, passed⟩
      · exact .inl keeps
      · exact .inr ⟨time, defers, passed⟩
    · rintro (keeps | ⟨time, defers, passed⟩)
      · exact ⟨next.due, .inl ⟨keeps, rfl⟩, due⟩
      · exact ⟨time, .inr defers, passed⟩
  refine ⟨resync, ?_, fun still => resync.trans ?_⟩
  · change ((c.after ⟨around, .reload⟩).after ⟨later, .timerExpired⟩).ringing = _ ↔ _
    rw [expiry_rings_iff later _ next.slot before]
    simp only [c.reload_slot_iff around next _ quiet scheduled]
    constructor
    · rintro ⟨time, ⟨keeps, rfl⟩ | defers, near⟩
      · exact .inl ⟨keeps, near⟩
      · exact .inr ⟨time, defers, near⟩
    · rintro (⟨keeps, near⟩ | ⟨time, defers, near⟩)
      · exact ⟨next.due, .inl ⟨keeps, rfl⟩, near⟩
      · exact ⟨time, .inr defers, near⟩
  · constructor
    · rintro (keeps | ⟨time, defers, passed⟩)
      · exact keeps
      · have ahead := c.defers_later around next.slot time defers
        exact absurd (Int.lt_of_lt_of_le ahead (Int.le_trans passed still)) (Int.lt_irrefl _)
    · exact .inl

def nineOnce : Slots := #v[⟨9, 0, Days.once, true⟩, Alarm.default, Alarm.default, Alarm.default]

def tenBeside : Slots := nineOnce.set 1 { Alarm.default with hour := 10 }

def readingOf (hour : Nat) (saved : Slots) : Surroundings :=
  ⟨Clock.plain ⟨⟨2024, 1, 2⟩, hour, 0, 0, 0⟩, none, .ok (some (Record.encode saved)), none⟩

def awaitingNine : Controller := initial.after ⟨readingOf 8 nineOnce, .init⟩

theorem unchanged_reload_rings :
    awaitingNine.ringing = none ∧ awaitingNine.next = some ⟨0, (readingOf 9 nineOnce).clock.now⟩ ∧
      (awaitingNine.run [⟨readingOf 9 nineOnce, .reload⟩, ⟨readingOf 9 nineOnce, .resync⟩]).ringing = some 0 := by
  have quiet : awaitingNine.ringing = none := by decide +kernel
  have scheduled : awaitingNine.next = some ⟨0, (readingOf 9 nineOnce).clock.now⟩ := by decide +kernel
  have nothingNew : awaitingNine.found? (readingOf 9 nineOnce) = none := by decide +kernel
  have exact := due_alarm_rings_iff (readingOf 9 nineOnce) (readingOf 9 nineOnce) awaitingNine _ quiet scheduled
    (Int.le_refl _)
  exact ⟨quiet, scheduled, exact.1.mpr (.inl (.inl nothingNew))⟩

theorem reload_loses_due_alarm :
    let c := awaitingNine
    let around := readingOf 9 tenBeside
    c.ringing = none ∧ c.next = some ⟨0, around.clock.now⟩ ∧
      c.next = findNext c.alarms.slots.toList (readingOf 8 nineOnce).clock.now ∧
      (Record.decode (Record.encode tenBeside)).toOption = some tenBeside ∧
      tenBeside[0] = c.alarms.slots[0] ∧ tenBeside[0].enabled = true ∧
      (c.run [⟨around, .reload⟩, ⟨around, .resync⟩]).ringing = none ∧
      (c.run [⟨around, .reload⟩, ⟨around, .timerExpired⟩]).ringing = none := by
  decide +kernel

end AlarmClock.Controller
