import AlarmClock.Days
import AlarmClock.Text
import AlarmClock.Text.Pieces

set_option autoImplicit false

namespace AlarmClock

def Weekday.parse? (text : List Char) : Option Weekday :=
  (weekFrom .sunday).find? fun day =>
    sameLetters day.shortName.toList text || sameLetters day.name.toList text ||
      sameLetters day.fullName.toList text

namespace Days

structure ParseError where
  text : String
deriving DecidableEq, Repr

def ParseError.message (e : ParseError) : String :=
  "invalid recurrence `" ++ e.text ++
    "`, expected `once`, `daily` or days like `Mo,We,Fr` / `Mo-Fr`"

def isSeparator (c : Char) : Bool := c == ',' || c == ' '

def pieceDays? (piece : List Char) : Option (List Weekday) :=
  match piece.dropWhile (· != '-') with
  | [] => (Weekday.parse? piece).map fun day => [day]
  | _ :: last => do
      let first ← Weekday.parse? (piece.takeWhile (· != '-'))
      let last ← Weekday.parse? last
      some (first.span last)

def parse? (text : List Char) : Option Days :=
  let text := trim text
  if text = [] ∨ sameLetters text "once".toList then some once
  else if sameLetters text "daily".toList then some daily
  else ((pieces isSeparator text).mapM pieceDays?).map fun lists => ofList lists.flatten

def parse (text : String) : Except ParseError Days :=
  match parse? text.toList with
  | some days => .ok days
  | none => .error ⟨text⟩

theorem trim_dashed (rest : List Char) : ∃ body, trim ('-' :: rest) = '-' :: body := by
  have start : trimStart ('-' :: rest) = '-' :: rest := List.dropWhile_cons_of_neg (by decide)
  have back : ∃ front, trimStart (rest.reverse ++ ['-']) = front ++ ['-'] := by
    rw [trimStart, List.dropWhile_append]
    split
    · exact ⟨[], rfl⟩
    · exact ⟨_, rfl⟩
  obtain ⟨front, ends⟩ := back
  refine ⟨front.reverse, ?_⟩
  rw [trim, start, List.reverse_cons, ends, List.reverse_append]
  rfl

-- The piece that a dash begins would be a range whose first day has no name.
theorem parse_undashed (text : String) (days : Days) (read : parse text = .ok days) (rest : List Char) :
    text.toList ≠ '-' :: rest := by
  intro dashed
  obtain ⟨body, trimmed⟩ := trim_dashed rest
  obtain ⟨piece, others, begins⟩ := pieces_begin isSeparator '-' body (by decide)
  have nameless : pieceDays? ('-' :: piece) = none := rfl
  have refused : parse? text.toList = none := by
    unfold parse?
    simp only [dashed, trimmed, begins, List.mapM_cons, nameless]
    simp [sameLetters]
  rw [parse, refused] at read
  cases read

end Days
end AlarmClock
