import AlarmClock.Alarm

set_option autoImplicit false

namespace AlarmClock

def slotCount : Nat := 4

abbrev Slots := Vector Alarm slotCount

def defaultSlots : Slots := Vector.replicate slotCount Alarm.default

structure AlarmSet where
  slots : Slots
  dirty : Bool
deriving DecidableEq

namespace AlarmSet

def empty : AlarmSet := ⟨defaultSlots, false⟩

def ofSlots (slots : Slots) : AlarmSet :=
  ⟨slots.map fun alarm => if alarm.HasTime then alarm else Alarm.default, false⟩

def markClean (set : AlarmSet) : AlarmSet := { set with dirty := false }

def get? (set : AlarmSet) (slot : Nat) : Option Alarm := set.slots[slot]?

def edit (set : AlarmSet) (slot : Nat) (change : Edit) : AlarmSet :=
  if inside : slot < slotCount then
    if change.Allowed then
      let edited := change.apply set.slots[slot]
      ⟨set.slots.set slot edited, set.dirty || edited != set.slots[slot]⟩
    else set
  else set

def hour (set : AlarmSet) (slot : Nat) : UInt8 := ((set.get? slot).map Alarm.hour).getD 0
def minute (set : AlarmSet) (slot : Nat) : UInt8 := ((set.get? slot).map Alarm.minute).getD 0
def days (set : AlarmSet) (slot : Nat) : Days := ((set.get? slot).map Alarm.days).getD Days.once
def isEnabled (set : AlarmSet) (slot : Nat) : Bool := ((set.get? slot).map Alarm.enabled).getD false

def isDaySet (set : AlarmSet) (slot weekday : Nat) : Bool :=
  match set.get? slot, Weekday.ofIndex? weekday with
  | some alarm, some day => alarm.days.contains day
  | _, _ => false

def anyEnabled (set : AlarmSet) : Bool := set.slots.any Alarm.enabled

theorem of_slots_of_has_time (slots : Slots) (times : ∀ alarm ∈ slots, alarm.HasTime) :
    ofSlots slots = ⟨slots, false⟩ := by
  simp only [ofSlots, AlarmSet.mk.injEq, and_true]
  apply Vector.ext
  intro i inside
  simp [times slots[i] (Vector.getElem_mem inside)]

theorem default_slots_valid (slot : Nat) (inside : slot < slotCount) : defaultSlots[slot].Valid := by
  rw [defaultSlots, Vector.getElem_replicate]
  exact Alarm.default_valid

theorem of_slots_default : ofSlots defaultSlots = ⟨defaultSlots, false⟩ := by
  apply of_slots_of_has_time
  intro alarm present
  obtain ⟨slot, inside, rfl⟩ := Vector.getElem_of_mem present
  exact (default_slots_valid slot inside).1

theorem set_keeps (holds : Alarm → Prop) (slots : Slots) (slot : Nat) (inside : slot < slotCount) (alarm : Alarm)
    (fits : holds alarm) (before : ∀ other (inside : other < slotCount), holds slots[other]) (other : Nat)
    (otherInside : other < slotCount) : holds (slots.set slot alarm)[other] := by
  rw [Vector.getElem_set]
  by_cases same : slot = other
  · rw [if_pos same]
    exact fits
  · rw [if_neg same]
    exact before other otherInside

theorem edit_outside (set : AlarmSet) (slot : Nat) (change : Edit) (outside : slotCount ≤ slot) :
    set.edit slot change = set := by
  simp [edit, Nat.not_lt.mpr outside]

theorem edit_inside (set : AlarmSet) (slot : Nat) (change : Edit) (inside : slot < slotCount)
    (allowed : change.Allowed) :
    set.edit slot change =
      ⟨set.slots.set slot (change.apply set.slots[slot]),
        set.dirty || change.apply set.slots[slot] != set.slots[slot]⟩ := by
  rw [edit, dif_pos inside, if_pos allowed]

theorem edit_refused (set : AlarmSet) (slot : Nat) (change : Edit) (refused : ¬ change.Allowed) :
    set.edit slot change = set := by
  simp [edit, refused]

theorem get?_edit_same (set : AlarmSet) (slot : Nat) (change : Edit) (allowed : change.Allowed) :
    (set.edit slot change).get? slot = (set.get? slot).map change.apply := by
  by_cases inside : slot < slotCount
  · rw [set.edit_inside slot change inside allowed]
    simp [get?, inside]
  · rw [set.edit_outside slot change (Nat.not_lt.mp inside), get?, Vector.getElem?_eq_none (Nat.not_lt.mp inside)]
    rfl

theorem get?_edit_other (set : AlarmSet) (slot other : Nat) (change : Edit) (different : slot ≠ other) :
    (set.edit slot change).get? other = set.get? other := by
  unfold edit
  split
  · split
    · simp [get?, different]
    · rfl
  · rfl

theorem slots_edit_of_clean (set : AlarmSet) (slot : Nat) (change : Edit)
    (clean : (set.edit slot change).dirty = false) : set.edit slot change = set := by
  unfold edit at clean ⊢
  split
  · split
    · rename_i inside allowed
      simp only [inside, allowed, dite_true, if_true, Bool.or_eq_false_iff, bne_eq_false_iff_eq] at clean
      obtain ⟨slots, dirty⟩ := set
      simp_all
    · rfl
  · rfl

end AlarmSet
end AlarmClock
