import AlarmClock.Text.Pieces
import AlarmClock.Weekday

set_option autoImplicit false

namespace AlarmClock

/-- A set of weekdays as a byte: bit 0 is Sunday, bit 6 is Saturday. -/
structure Days where
  bits : UInt8
deriving DecidableEq, Repr

namespace Days

def once : Days := ⟨0⟩
def daily : Days := ⟨0x7f⟩

def bit : Weekday → UInt8
  | .sunday => 1
  | .monday => 2
  | .tuesday => 4
  | .wednesday => 8
  | .thursday => 16
  | .friday => 32
  | .saturday => 64

def ofBits (bits : UInt8) : Days := ⟨bits &&& daily.bits⟩

def isOnce (days : Days) : Bool := days.bits == 0

def contains (days : Days) (day : Weekday) : Bool := days.bits &&& bit day != 0

def insert (days : Days) (day : Weekday) : Days := ⟨days.bits ||| bit day⟩

def erase (days : Days) (day : Weekday) : Days := ⟨days.bits &&& ~~~bit day⟩

def set (days : Days) (day : Weekday) (on : Bool) : Days :=
  if on then days.insert day else days.erase day

def ofList (list : List Weekday) : Days := list.foldl insert once

def toList (days : Days) : List Weekday := (Weekday.weekFrom .sunday).filter days.contains

def size (days : Days) : Nat := days.toList.length

def Valid (days : Days) : Prop := days.bits ≤ daily.bits

instance (days : Days) : Decidable days.Valid := inferInstanceAs (Decidable (_ ≤ _))

def labelStart (days : Days) : Weekday :=
  if days.contains .saturday && days.contains .sunday then
    match (Weekday.weekFrom .sunday).reverse.find? fun day => !days.contains day with
    | some gap => gap.forward 1
    | none => .sunday
  else .sunday

def runs (days : Days) : List (List Weekday) :=
  pieces (fun day => !days.contains day) (Weekday.weekFrom days.labelStart)

def runText : List Weekday → String
  | [] => ""
  | [day] => day.shortName
  | day :: rest => day.shortName ++ "-" ++ (rest.getLastD day).shortName

def label (days : Days) : String :=
  if days = once then "Once"
  else if days = daily then "Daily"
  else " ".intercalate (days.runs.map runText)

theorem of_bits_valid (bits : UInt8) : (ofBits bits).Valid :=
  UInt8.le_iff_toNat_le.mpr (by
    simp only [ofBits, UInt8.toNat_and]
    exact Nat.and_le_right)

theorem valid_iff (days : Days) : days.Valid ↔ days.bits.toNat < 128 := by
  have top : daily.bits.toNat = 127 := by decide
  rw [Valid, UInt8.le_iff_toNat_le, top]
  omega

theorem of_bits_bits (days : Days) (valid : days.Valid) : ofBits days.bits = days := by
  obtain ⟨bits⟩ := days
  have small := (valid_iff _).mp valid
  have kept : bits &&& daily.bits = bits := by
    apply UInt8.toNat_inj.mp
    rw [UInt8.toNat_and]
    exact (Nat.and_two_pow_sub_one_eq_mod bits.toNat 7).trans (Nat.mod_eq_of_lt small)
  simp [ofBits, kept]

theorem get_lsb_bit (day other : Weekday) :
    (bit day).toBitVec.getLsbD other.index = decide (other = day) := by
  cases day <;> cases other <;> decide

theorem contains_eq_get_lsb (days : Days) (day : Weekday) :
    days.contains day = days.bits.toBitVec.getLsbD day.index := by
  obtain ⟨⟨bits⟩⟩ := days
  revert bits
  cases day <;> decide +kernel

theorem contains_insert (days : Days) (day other : Weekday) :
    (days.insert day).contains other = (decide (other = day) || days.contains other) := by
  simp only [contains_eq_get_lsb, insert, UInt8.toBitVec_or, BitVec.getLsbD_or, get_lsb_bit]
  exact Bool.or_comm _ _

theorem contains_erase (days : Days) (day other : Weekday) :
    (days.erase day).contains other = (!decide (other = day) && days.contains other) := by
  have inside : other.index < 8 := Nat.lt_succ_of_lt other.index_lt
  simp only [contains_eq_get_lsb, erase, UInt8.toBitVec_and, UInt8.toBitVec_not, BitVec.getLsbD_and,
    BitVec.getLsbD_not, get_lsb_bit, inside, decide_true, Bool.true_and]
  exact Bool.and_comm _ _

theorem insert_valid (days : Days) (day : Weekday) (valid : days.Valid) : (days.insert day).Valid := by
  have small : (bit day).toNat < 128 := by cases day <;> decide
  rw [valid_iff] at valid ⊢
  exact UInt8.toNat_or .. ▸ Nat.or_lt_two_pow (n := 7) valid small

theorem erase_valid (days : Days) (day : Weekday) (valid : days.Valid) : (days.erase day).Valid := by
  rw [valid_iff] at valid ⊢
  exact UInt8.toNat_and .. ▸ Nat.lt_of_le_of_lt Nat.and_le_left valid

end Days
end AlarmClock
