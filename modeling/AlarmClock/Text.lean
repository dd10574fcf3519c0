set_option autoImplicit false

namespace AlarmClock

def isBlank (c : Char) : Bool :=
  let n := c.toNat
  (9 ≤ n && n ≤ 13) || n == 0x20 || n == 0x85 || n == 0xA0 || n == 0x1680 ||
    (0x2000 ≤ n && n ≤ 0x200A) || n == 0x2028 || n == 0x2029 || n == 0x202F || n == 0x205F || n == 0x3000

def trimStart (text : List Char) : List Char := text.dropWhile isBlank

def trim (text : List Char) : List Char := (trimStart (trimStart text).reverse).reverse

def sameLetters (a b : List Char) : Bool := a.map Char.toLower == b.map Char.toLower

theorem same_letters_iff (a b : List Char) : sameLetters a b = true ↔ a.map Char.toLower = b.map Char.toLower := by
  rw [sameLetters, beq_iff_eq]

def digitValue? (c : Char) : Option Nat :=
  if '0' ≤ c ∧ c ≤ '9' then some (c.toNat - 48)
  else if 'a' ≤ c ∧ c ≤ 'f' then some (c.toNat - 87)
  else if 'A' ≤ c ∧ c ≤ 'F' then some (c.toNat - 55)
  else none

def isDigitIn (base : Nat) (c : Char) : Bool := (digitValue? c).any (· < base)

def ofDigits (base : Nat) (digits : List Char) : Nat :=
  digits.foldl (fun n c => base * n + (digitValue? c).getD 0) 0

theorem decimal_digits (n : Nat) : ∀ c ∈ Nat.toDigits 10 n, c.isDigit = true :=
  fun _ present => Nat.isDigit_of_mem_toDigits (by decide) (by decide) present

theorem digits_undashed (n : Nat) (rest : List Char) : (toString n).toList ≠ '-' :: rest := by
  rw [Nat.toString_eq_repr, Nat.toList_repr]
  intro dashed
  have first := decimal_digits n '-' (dashed ▸ List.mem_cons_self)
  cases first

theorem decimal_value (n : Nat) : ofDigits 10 (Nat.toDigits 10 n) = n := by
  have same : ∀ digits : List Char, (∀ c ∈ digits, c.isDigit = true) → ∀ init,
      digits.foldl (fun n c => 10 * n + (digitValue? c).getD 0) init = Nat.ofDigitChars 10 digits init := by
    intro digits
    induction digits with
    | nil => exact fun _ init => rfl
    | cons c digits ih =>
        intro decimal init
        have first := decimal c List.mem_cons_self
        simp only [Char.isDigit, Bool.and_eq_true, decide_eq_true_eq, ge_iff_le] at first
        have value : digitValue? c = some (c.toNat - '0'.toNat) := if_pos first
        rw [List.foldl_cons, ih fun other present => decimal other (List.mem_cons_of_mem c present), value,
          Nat.ofDigitChars_cons]
        rfl
  exact (same _ (decimal_digits n) 0).trans Nat.ofDigitChars_ten_toDigits

def padLeft (fill : Char) (width : Nat) (text : String) : String :=
  String.ofList (List.replicate (width - text.length) fill) ++ text

def padRight (fill : Char) (width : Nat) (text : String) : String :=
  text ++ String.ofList (List.replicate (width - text.length) fill)

def zeroPadded (width n : Nat) : String := padLeft '0' width (toString n)

def twoDigits (n : Nat) : String := zeroPadded 2 n

theorem two_digits (n : Nat) (short : n < 100) :
    (twoDigits n).toList = [(n / 10).digitChar, (n % 10).digitChar] := by
  unfold twoDigits zeroPadded padLeft
  rw [String.toList_append, String.toList_ofList, ← String.length_toList, Nat.toString_eq_repr, Nat.toList_repr]
  by_cases one : n < 10
  · rw [Nat.toDigits_of_lt_base one, Nat.div_eq_of_lt one, Nat.mod_eq_of_lt one]
    rfl
  · rw [Nat.toDigits_of_base_le (by decide) (Nat.not_lt.mp one), Nat.toDigits_of_lt_base (by omega)]
    rfl

end AlarmClock
