import AlarmClock.Proofs.DaySets
import AlarmClock.Proofs.Validity

set_option autoImplicit false

namespace AlarmClock

structure PlainAlarm where
  hour : Nat
  minute : Nat
  days : Finset Weekday
  on : Bool
deriving DecidableEq

def Alarm.plain (alarm : Alarm) : PlainAlarm :=
  ⟨alarm.hour.toNat, alarm.minute.toNat, alarm.days.members, alarm.enabled⟩

theorem Alarm.plain_injective (a b : Alarm) (validA : a.Valid) (validB : b.Valid) (same : a.plain = b.plain) : a = b := by
  obtain ⟨hour, minute, days, on⟩ := a
  obtain ⟨otherHour, otherMinute, otherDays, otherOn⟩ := b
  simp only [plain, PlainAlarm.mk.injEq] at same
  obtain ⟨hours, minutes, members, rfl⟩ := same
  rw [UInt8.toNat_inj.mp hours, UInt8.toNat_inj.mp minutes,
    Days.members_injective days otherDays validA.2 validB.2 members]

inductive Request where
  | time (slot : Nat) (hour minute : UInt8)
  | switch (slot : Nat) (on : Bool)
  | recurrence (slot : Nat) (bits : UInt8)
  | weekday (slot : Nat) (day : Weekday) (on : Bool)
deriving DecidableEq

namespace Request

def slot : Request → Nat
  | .time slot _ _ | .switch slot _ | .recurrence slot _ | .weekday slot _ _ => slot

def edit : Request → Edit
  | .time _ hour minute => .setTime hour minute
  | .switch _ on => .setEnabled on
  | .recurrence _ bits => .setDays (Days.ofBits bits)
  | .weekday _ day on => .setDay day on

def IsTimely : Request → Prop
  | .time _ hour minute => hour.toNat ≤ 23 ∧ minute.toNat ≤ 59
  | .switch _ _ | .recurrence _ _ | .weekday _ _ _ => True

instance : (request : Request) → Decidable request.IsTimely
  | .time _ hour minute => inferInstanceAs (Decidable (hour.toNat ≤ 23 ∧ minute.toNat ≤ 59))
  | .switch _ _ | .recurrence _ _ | .weekday _ _ _ => inferInstanceAs (Decidable True)

def revise (alarm : PlainAlarm) : Request → PlainAlarm
  | .time _ hour minute => { alarm with hour := hour.toNat, minute := minute.toNat }
  | .switch _ on => { alarm with on := on }
  | .recurrence _ bits => { alarm with days := Weekday.week.filter fun day => bits.toNat.testBit day.index = true }
  | .weekday _ day on => { alarm with days := if on then insert day alarm.days else alarm.days.erase day }

def step (alarms : List PlainAlarm) (request : Request) : List PlainAlarm :=
  if request.slot < 4 ∧ request.IsTimely then alarms.modify request.slot request.revise else alarms

def Changes (alarms : List PlainAlarm) : List Request → Prop
  | [] => False
  | request :: later => step alarms request ≠ alarms ∨ Changes (step alarms request) later

theorem timely_iff (request : Request) : request.IsTimely ↔ request.edit.Allowed := by
  cases request with
  | time slot hour minute =>
      simp [IsTimely, edit, Edit.Allowed, isTimeOfDay, UInt8.le_iff_toNat_le]
  | switch slot on | recurrence slot bits | weekday slot day on => exact Iff.rfl

theorem edit_proper (request : Request) : request.edit.Proper := by
  cases request with
  | recurrence slot bits => exact Days.of_bits_valid bits
  | time slot hour minute | switch slot on | weekday slot day on => trivial

theorem plain_apply (request : Request) (alarm : Alarm) :
    (request.edit.apply alarm).plain = request.revise alarm.plain := by
  cases request with
  | time slot hour minute | switch slot on => rfl
  | recurrence slot bits => simp only [edit, Edit.apply, Alarm.plain, revise, Days.members_of_bits]
  | weekday slot day on => simp only [edit, Edit.apply, Alarm.plain, revise, Days.members_set]

end Request

namespace AlarmSet

def plain (set : AlarmSet) : List PlainAlarm := set.slots.toList.map Alarm.plain

def requested (set : AlarmSet) (request : Request) : AlarmSet := set.edit request.slot request.edit

theorem plain_get (set : AlarmSet) (slot : Nat) : set.plain[slot]? = (set.get? slot).map Alarm.plain := by
  rw [plain, List.getElem?_map, Vector.getElem?_toList]
  rfl

theorem plain_injective (a b : AlarmSet) (validA : a.Valid) (validB : b.Valid) (same : a.plain = b.plain) :
    a.slots = b.slots := by
  apply Vector.ext
  intro slot inside
  have here := congrArg (·[slot]?) same
  simp only [plain_get, get?, Vector.getElem?_eq_getElem inside, Option.map_some, Option.some.injEq] at here
  exact Alarm.plain_injective _ _ (validA slot inside) (validB slot inside) here

theorem plain_requested (set : AlarmSet) (request : Request) :
    (set.requested request).plain = Request.step set.plain request := by
  unfold Request.step
  by_cases kept : request.slot < 4 ∧ request.IsTimely
  · obtain ⟨inside, timely⟩ := kept
    rw [if_pos ⟨inside, timely⟩]
    apply List.ext_getElem?
    intro other
    rw [List.getElem?_modify, plain_get, plain_get, requested]
    by_cases here : request.slot = other
    · subst here
      rw [set.get?_edit_same _ _ (request.timely_iff.mp timely)]
      simp only [if_true, Option.map_map, Option.map_eq_map]
      congr 1
      funext alarm
      exact request.plain_apply alarm
    · rw [set.get?_edit_other _ _ _ here]
      simp [here]
  · rw [if_neg kept]
    congr 1
    rcases not_and_or.mp kept with outside | untimely
    · exact set.edit_outside _ _ (Nat.not_lt.mp outside)
    · exact set.edit_refused _ _ fun allowed => untimely (request.timely_iff.mpr allowed)

theorem dirty_edit_iff (set : AlarmSet) (slot : Nat) (change : Edit) :
    (set.edit slot change).dirty = true ↔ set.dirty = true ∨ (set.edit slot change).slots ≠ set.slots := by
  by_cases inside : slot < slotCount
  · by_cases allowed : change.Allowed
    · rw [set.edit_inside slot change inside allowed, Bool.or_eq_true, bne_iff_ne]
      apply or_congr_right
      apply not_congr
      constructor
      · intro same
        rw [same, Vector.set_getElem_self]
      · intro same
        have here := congrArg (·[slot]) same
        simpa using here
    · rw [set.edit_refused slot change allowed]
      simp
  · rw [set.edit_outside slot change (Nat.not_lt.mp inside)]
    simp

theorem valid_requested (set : AlarmSet) (request : Request) (valid : set.Valid) : (set.requested request).Valid :=
  set.valid_edit request.slot request.edit request.edit_proper valid

theorem dirty_requested_iff (set : AlarmSet) (request : Request) (valid : set.Valid) :
    (set.requested request).dirty = true ↔ set.dirty = true ∨ Request.step set.plain request ≠ set.plain := by
  rw [← set.plain_requested request]
  refine (set.dirty_edit_iff request.slot request.edit).trans (or_congr_right (not_congr ⟨?_, ?_⟩))
  · exact fun same => congrArg (fun slots => slots.toList.map Alarm.plain) same
  · exact plain_injective _ _ (set.valid_requested request valid) valid

def requestedAll (set : AlarmSet) (requests : List Request) : AlarmSet := requests.foldl requested set

theorem valid_requested_all (set : AlarmSet) (requests : List Request) (valid : set.Valid) :
    (set.requestedAll requests).Valid := by
  induction requests generalizing set with
  | nil => exact valid
  | cons request later ih => exact ih (set.requested request) (set.valid_requested request valid)

theorem plain_requested_all (set : AlarmSet) (requests : List Request) :
    (set.requestedAll requests).plain = requests.foldl Request.step set.plain := by
  induction requests generalizing set with
  | nil => rfl
  | cons request later ih =>
      rw [List.foldl_cons, ← set.plain_requested request]
      exact ih (set.requested request)

theorem dirty_requested_all_iff (set : AlarmSet) (requests : List Request) (valid : set.Valid) :
    (set.requestedAll requests).dirty = true ↔ set.dirty = true ∨ Request.Changes set.plain requests := by
  induction requests generalizing set with
  | nil => exact ⟨.inl, fun found => found.resolve_right id⟩
  | cons request later ih =>
      have rest := ih (set.requested request) (set.valid_requested request valid)
      rw [set.dirty_requested_iff request valid, set.plain_requested request, or_assoc] at rest
      exact rest

theorem requested_all_of_clean (set : AlarmSet) (requests : List Request)
    (clean : (set.requestedAll requests).dirty = false) : set.requestedAll requests = set := by
  induction requests generalizing set with
  | nil => rfl
  | cons request later ih =>
      have rest : (set.requested request).requestedAll later = set.requested request := ih (set.requested request) clean
      change ((set.requested request).requestedAll later).dirty = false at clean
      rw [rest] at clean
      exact rest.trans (set.slots_edit_of_clean request.slot request.edit clean)

theorem is_day_set_iff (set : AlarmSet) (slot weekday : Nat) :
    set.isDaySet slot weekday = true ↔
      ∃ alarm day, set.plain[slot]? = some alarm ∧ day ∈ alarm.days ∧ day.index = weekday := by
  rw [isDaySet, plain_get]
  cases set.get? slot with
  | none => simp
  | some alarm =>
      constructor
      · intro contained
        cases named : Weekday.ofIndex? weekday with
        | none => simp [named] at contained
        | some day =>
            rw [named] at contained
            exact ⟨alarm.plain, day, rfl, (alarm.days.mem_members day).mpr contained,
              (Weekday.of_index_some_iff weekday day).mp named⟩
      · rintro ⟨plain, day, present, member, named⟩
        obtain rfl := Option.some.inj present
        rw [(Weekday.of_index_some_iff weekday day).mpr named]
        exact (alarm.days.mem_members day).mp member

inductive Fresh : AlarmSet → Prop where
  | empty : Fresh empty
  | saved (slots : Slots) (valid : ∀ slot (inside : slot < slotCount), slots[slot].Valid) : Fresh (ofSlots slots)

theorem Fresh.clean (set : AlarmSet) (fresh : set.Fresh) : set.dirty = false ∧ set.Valid := by
  cases fresh with
  | empty => exact ⟨rfl, default_slots_valid⟩
  | saved slots valid =>
      have timed : ∀ alarm ∈ slots, alarm.HasTime := by
        intro alarm present
        obtain ⟨slot, inside, rfl⟩ := Vector.getElem_of_mem present
        exact (valid slot inside).1
      rw [of_slots_of_has_time slots timed]
      exact ⟨rfl, valid⟩

theorem edits_refine_plain_slots (start : AlarmSet) (fresh : start.Fresh) (requests : List Request) :
    let final := start.requestedAll requests
    let plain := requests.foldl Request.step start.plain
    final.plain = plain ∧
      (∀ slot (inside : slot < slotCount),
        final.slots[slot].hour ≤ 23 ∧ final.slots[slot].minute ≤ 59 ∧ final.slots[slot].days.bits ≤ 0x7f) ∧
      (∀ slot weekday, final.isDaySet slot weekday = true ↔
        ∃ alarm day, plain[slot]? = some alarm ∧ day ∈ alarm.days ∧ day.index = weekday) ∧
      (∀ slot weekday, 4 ≤ slot ∨ 7 ≤ weekday → final.isDaySet slot weekday = false) ∧
      (final.dirty = true ↔ Request.Changes start.plain requests) ∧ (final.dirty = false → final = start) := by
  intro final plain
  obtain ⟨clean, valid⟩ := fresh.clean
  have refines : final.plain = plain := start.plain_requested_all requests
  have daySet : ∀ slot weekday, final.isDaySet slot weekday = true ↔
      ∃ alarm day, plain[slot]? = some alarm ∧ day ∈ alarm.days ∧ day.index = weekday :=
    fun slot weekday => refines ▸ final.is_day_set_iff slot weekday
  refine ⟨refines, ?_, daySet, ?_, ?_, start.requested_all_of_clean requests⟩
  · intro slot inside
    obtain ⟨⟨hour, minute⟩, days⟩ := start.valid_requested_all requests valid slot inside
    exact ⟨hour, minute, days⟩
  · intro slot weekday outside
    apply Bool.eq_false_iff.mpr
    intro found
    obtain ⟨alarm, day, present, -, named⟩ := (daySet slot weekday).mp found
    rcases outside with slots | days
    · have beyond : slotCount ≤ slot := slots
      rw [← refines, plain_get, get?, Vector.getElem?_eq_none beyond] at present
      cases present
    · exact absurd day.index_lt (Nat.not_lt.mpr (named ▸ days))
  · exact (start.dirty_requested_all_iff requests valid).trans (by simp [clean])

def mondayAtSix : Slots := #v[Alarm.default, Alarm.default, ⟨6, 0, Days.ofList [.monday], true⟩, Alarm.default]

def backAndForth : List Request :=
  [.switch 2 false, .switch 2 true, .time 2 24 0, .time 4 8 0, .recurrence 2 0xff, .weekday 2 .sunday false,
    .weekday 7 .monday false]

theorem mixed_edits_refine :
    (ofSlots mondayAtSix).Fresh ∧ ((ofSlots mondayAtSix).requestedAll backAndForth).dirty = true ∧
      ((ofSlots mondayAtSix).requestedAll (backAndForth.take 4)).dirty = true ∧
      ((ofSlots mondayAtSix).requestedAll (backAndForth.take 4)).plain = (ofSlots mondayAtSix).plain ∧
      ((ofSlots mondayAtSix).requestedAll backAndForth).plain[2]? =
        some ⟨6, 0, {.monday, .tuesday, .wednesday, .thursday, .friday, .saturday}, true⟩ ∧
      ((ofSlots mondayAtSix).requestedAll backAndForth).isDaySet 2 0 = false := by
  have fresh : (ofSlots mondayAtSix).Fresh := .saved mondayAtSix (by decide)
  obtain ⟨plain, -, -, -, changed, -⟩ := edits_refine_plain_slots _ fresh backAndForth
  obtain ⟨firstPlain, -, -, -, firstChanged, -⟩ := edits_refine_plain_slots _ fresh (backAndForth.take 4)
  refine ⟨fresh, changed.mpr (.inl (by decide +kernel)), firstChanged.mpr (.inl (by decide +kernel)), firstPlain.trans ?_, ?_, ?_⟩
  · decide +kernel
  · rw [plain]
    decide +kernel
  · decide +kernel

end AlarmSet
end AlarmClock
