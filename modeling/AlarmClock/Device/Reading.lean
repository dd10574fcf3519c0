import AlarmClock.Device

set_option autoImplicit false

namespace AlarmClock.Device

def hasNews (d : Device) : Bool :=
  match d.surroundings.saved with
  | .ok (some bytes) => some bytes != d.controller.stored && (Record.decode bytes).toOption.isSome
  | .ok none | .error _ => false

def awaited? (d : Device) : Option NextAlarm := if d.controller.ringing.isSome then none else d.controller.next

def looks (d : Device) : Action → Bool
  | .init | .schedule => true
  | .reload => d.controller.ringing.isNone && d.hasNews
  | .resync => d.controller.ringing.isNone
  | .timerExpired => d.awaited?.any fun next => Controller.expirySlack < d.clock.reading.untilTime next.due
  | .stop => d.controller.ringing.isSome
  | .disable slot => d.controller.alarms.isEnabled slot
  | .load | .save | .triggerNow | .edit _ _ => false
  | .setClock _ | .advance _ | .setSkew _ | .failTimer _ | .failStorage _ _ | .put _ | .hangUp => false

def Tells (d : Device) (next : Option NextAlarm) : Prop := ∀ alarm, next = some alarm → d.clock.Tells alarm.due

instance (d : Device) : (next : Option NextAlarm) → Decidable (d.Tells next)
  | none => .isTrue (by simp [Tells])
  | some alarm => decidable_of_iff (d.clock.Tells alarm.due) (by simp [Tells])

def CanStep (d : Device) (action : Action) : Prop :=
  (d.looks action = true → d.clock.Shows) ∧ (action = .timerExpired → d.Tells d.awaited?)

instance (d : Device) (action : Action) : Decidable (d.CanStep action) := inferInstanceAs (Decidable (_ ∧ _))

theorem step_of_not_looks (d : Device) (action : Action) (other : WallClock) (blind : d.looks action = false)
    (idle : action = .timerExpired → d.awaited? = none) :
    let here := d.step action
    let there := { d with clock := other }.step action
    there.1 = here.1 ∧ there.2.1.controller = here.2.1.controller ∧ there.2.2 = here.2.2 := by
  cases action with
  | init | schedule => cases blind
  | load =>
    have same : d.controller.load { d with clock := other }.surroundings = d.controller.load d.surroundings := rfl
    simp [step, call, controller_follow, same]
  | save =>
    have same : d.controller.save { d with clock := other }.surroundings = d.controller.save d.surroundings := rfl
    simp [step, call, controller_follow, same]
  | reload =>
    have saved : { d with clock := other }.surroundings.saved = d.surroundings.saved := rfl
    simp only [looks, hasNews, Bool.and_eq_false_iff] at blind
    simp only [step, call, controller_follow, Controller.reload, saved]
    repeat' split
    all_goals simp_all [Except.toOption]
  | resync =>
    have ringing : d.controller.ringing.isSome := by simpa [looks] using blind
    simp [step, call, controller_follow, Controller.resync, ringing]
  | timerExpired =>
    have alone := idle rfl
    cases ringing : d.controller.ringing with
    | some slot => simp [step, call, controller_follow, Controller.timerExpired, ringing]
    | none =>
      have unscheduled : d.controller.next = none := by simpa [awaited?, ringing] using alone
      simp [step, call, controller_follow, Controller.timerExpired, ringing, unscheduled]
  | stop =>
    have quiet : d.controller.ringing = none := by simpa [looks] using blind
    simp [step, call, controller_follow, Controller.stop, quiet]
  | disable slot =>
    have off : d.controller.alarms.isEnabled slot = false := blind
    simp [step, call, controller_follow, Controller.disable, off]
  | triggerNow | edit => simp [step, call, controller_follow]
  | setClock | advance | setSkew | failTimer | failStorage | put | hangUp => simp [step]

end AlarmClock.Device
