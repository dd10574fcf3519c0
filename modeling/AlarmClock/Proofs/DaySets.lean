import AlarmClock.Days
import Mathlib.Data.Finset.Basic

set_option autoImplicit false

namespace AlarmClock

namespace Weekday

def week : Finset Weekday := (weekFrom .sunday).toFinset

theorem mem_week (day : Weekday) : day ∈ week := by
  cases day with
  | sunday | monday | tuesday | wednesday | thursday | friday | saturday => decide

theorem of_index_some_iff (count : Nat) (day : Weekday) : ofIndex? count = some day ↔ day.index = count := by
  constructor
  · intro found
    match count with
    | 0 | 1 | 2 | 3 | 4 | 5 | 6 =>
        obtain rfl := Option.some.inj found
        rfl
    | _ + 7 => cases found
  · rintro rfl
    exact of_index_index day

theorem exists_index (count : Nat) (inside : count < 7) : ∃ day : Weekday, day.index = count := by
  refine ⟨fromSunday count, ?_⟩
  rw [index_from_sunday, Nat.mod_eq_of_lt inside]

end Weekday

namespace Days

def members (days : Days) : Finset Weekday := Weekday.week.filter fun day => days.contains day = true

theorem mem_members (days : Days) (day : Weekday) : day ∈ days.members ↔ days.contains day = true := by
  rw [members, Finset.mem_filter, and_iff_right (Weekday.mem_week day)]

theorem members_of_bits (bits : UInt8) :
    (ofBits bits).members = Weekday.week.filter fun day => bits.toNat.testBit day.index = true := by
  ext day
  rw [mem_members, Finset.mem_filter, and_iff_right (Weekday.mem_week day), contains_eq_get_lsb]
  have named : daily.bits.toBitVec.getLsbD day.index = true := by
    cases day with
    | sunday | monday | tuesday | wednesday | thursday | friday | saturday => rfl
  simp only [ofBits, UInt8.toBitVec_and, BitVec.getLsbD_and, named, Bool.and_true]
  rfl

theorem bit_of_valid (days : Days) (valid : days.Valid) (i : Nat) :
    days.bits.toNat.testBit i = true ↔ ∃ day ∈ days.members, day.index = i := by
  simp only [mem_members, contains_eq_get_lsb]
  constructor
  · intro bit
    have inside : i < 7 := by
      by_contra outside
      have small : days.bits.toNat < 2 ^ i :=
        Nat.lt_of_lt_of_le ((valid_iff days).mp valid) (Nat.pow_le_pow_right Nat.two_pos (Nat.not_lt.mp outside))
      rw [Nat.testBit_lt_two_pow small] at bit
      cases bit
    obtain ⟨day, named⟩ := Weekday.exists_index i inside
    rw [← named] at bit
    exact ⟨day, bit, named⟩
  · rintro ⟨day, bit, rfl⟩
    exact bit

theorem members_injective (a b : Days) (validA : a.Valid) (validB : b.Valid) (same : a.members = b.members) : a = b := by
  obtain ⟨bitsA⟩ := a
  obtain ⟨bitsB⟩ := b
  congr 1
  apply UInt8.toNat_inj.mp
  apply Nat.eq_of_testBit_eq
  intro i
  rw [Bool.eq_iff_iff, bit_of_valid _ validA i, bit_of_valid _ validB i, same]

theorem members_set (days : Days) (day : Weekday) (on : Bool) :
    (days.set day on).members = if on then Insert.insert day days.members else days.members.erase day := by
  ext other
  cases on with
  | true =>
      rw [if_pos rfl, Finset.mem_insert, mem_members, mem_members, set, if_pos rfl, contains_insert]
      simp
  | false =>
      rw [if_neg Bool.false_ne_true, Finset.mem_erase, mem_members, mem_members, set, if_neg Bool.false_ne_true,
        contains_erase]
      simp

theorem of_list_valid (list : List Weekday) : (ofList list).Valid := by
  have grows : ∀ days : Days, days.Valid → (list.foldl insert days).Valid := by
    induction list with
    | nil => exact fun _ valid => valid
    | cons day rest ih => exact fun days valid => ih (days.insert day) (days.insert_valid day valid)
  exact grows once (by decide)

theorem contains_of_list (list : List Weekday) (day : Weekday) : (ofList list).contains day = true ↔ day ∈ list := by
  have grows : ∀ days : Days, (list.foldl insert days).contains day = true ↔ day ∈ list ∨ days.contains day = true := by
    induction list with
    | nil => simp
    | cons first rest ih =>
        intro days
        rw [List.foldl_cons, ih, contains_insert, List.mem_cons, Bool.or_eq_true, decide_eq_true_eq]
        exact or_left_comm.trans or_assoc.symm
  have empty : once.contains day = false := by
    cases day <;> rfl
  rw [ofList, grows, empty]
  simp

end Days
end AlarmClock
