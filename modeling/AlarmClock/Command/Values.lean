import AlarmClock.Alarm
import AlarmClock.Text

set_option autoImplicit false

namespace AlarmClock

def slotNumber? (text : List Char) : Option Nat :=
  let digits := match text with
    | '+' :: rest => rest
    | _ => text
  let number := ofDigits 10 digits
  if digits ≠ [] ∧ digits.all Char.isDigit ∧ number < UInt64.size then some number else none

def shortNumber? (text : List Char) : Option (Nat × List Char) :=
  let tail := trimStart text
  let digits := (tail.take 2).takeWhile Char.isDigit
  if digits = [] then none else some (ofDigits 10 digits, tail.drop digits.length)

def timeOfDay? (text : List Char) : Option (UInt8 × UInt8) :=
  match shortNumber? text with
  | some (hour, ':' :: rest) =>
      match shortNumber? rest with
      | some (minute, []) =>
          if isTimeOfDay hour.toUInt8 minute.toUInt8 then some (hour.toUInt8, minute.toUInt8) else none
      | _ => none
  | _ => none

theorem is_time_of_day_of_read (text : List Char) (hour minute : UInt8)
    (read : timeOfDay? text = some (hour, minute)) : isTimeOfDay hour minute = true := by
  unfold timeOfDay? at read
  split at read
  · split at read
    · split at read
      · simp only [Option.some.injEq, Prod.mk.injEq] at read
        obtain ⟨rfl, rfl⟩ := read
        assumption
      · cases read
    · cases read
  · cases read

theorem slot_number_of_digits (n : Nat) :
    slotNumber? (toString n).toList = if n < UInt64.size then some n else none := by
  rw [Nat.toString_eq_repr, Nat.toList_repr]
  have decimal := decimal_digits n
  have value := decimal_value n
  have filled : Nat.toDigits 10 n ≠ [] := Nat.toDigits_ne_nil
  generalize Nat.toDigits 10 n = digits at decimal value filled
  have unsigned : ∀ rest, digits ≠ '+' :: rest := fun rest signed => by
    have plus := decimal '+' (signed ▸ List.mem_cons_self)
    cases plus
  unfold slotNumber?
  split
  · exact absurd rfl (unsigned _)
  · simp only [value, filled, List.all_eq_true.mpr decimal, ne_eq, not_false_eq_true, true_and]

-- Two digits are a number, and what follows them is left.
theorem short_number_of_digits (n : Nat) (short : n < 100) (rest : List Char) :
    shortNumber? ((n / 10).digitChar :: (n % 10).digitChar :: rest) = some (n, rest) := by
  have digit : ∀ k < 10, k.digitChar.isDigit = true ∧ isBlank k.digitChar = false ∧
      digitValue? k.digitChar = some k := by decide
  obtain ⟨tens, solid, tensValue⟩ := digit (n / 10) (by omega)
  obtain ⟨ones, -, onesValue⟩ := digit (n % 10) (by omega)
  have start : trimStart ((n / 10).digitChar :: (n % 10).digitChar :: rest) =
      (n / 10).digitChar :: (n % 10).digitChar :: rest := List.dropWhile_cons_of_neg (by simp [solid])
  have value : ofDigits 10 [(n / 10).digitChar, (n % 10).digitChar] = n := by
    simp only [ofDigits, List.foldl_cons, List.foldl_nil, tensValue, onesValue, Option.getD_some]
    omega
  unfold shortNumber?
  rw [start]
  simp [tens, ones, value]

theorem time_of_day_of_digits (hour minute : Nat) (hours : hour < 100) (minutes : minute < 100) :
    timeOfDay? (twoDigits hour ++ ":" ++ twoDigits minute).toList =
      if hour ≤ 23 ∧ minute ≤ 59 then some (hour.toUInt8, minute.toUInt8) else none := by
  have text : (twoDigits hour ++ ":" ++ twoDigits minute).toList = (hour / 10).digitChar :: (hour % 10).digitChar ::
      ':' :: (minute / 10).digitChar :: (minute % 10).digitChar :: [] := by
    rw [String.toList_append, String.toList_append, two_digits hour hours, two_digits minute minutes]
    rfl
  have real : isTimeOfDay hour.toUInt8 minute.toUInt8 = true ↔ hour ≤ 23 ∧ minute ≤ 59 := by
    simp only [isTimeOfDay, Bool.and_eq_true, decide_eq_true_eq, UInt8.le_iff_toNat_le]
    simp [Nat.mod_eq_of_lt (show hour < 256 by omega), Nat.mod_eq_of_lt (show minute < 256 by omega)]
  unfold timeOfDay?
  simp only [text, short_number_of_digits hour hours, short_number_of_digits minute minutes, real]

end AlarmClock
