import AlarmClock.Text
import AlarmClock.Zone

set_option autoImplicit false

namespace AlarmClock.Zone

def number? (text : List Char) : Option (Nat × List Char) :=
  let digits := text.takeWhile Char.isDigit
  if digits = [] then none else some (ofDigits 10 digits, text.drop digits.length)

def part? (mark : Char) : List Char → Option (Nat × List Char)
  | c :: rest => if c = mark then number? rest else some (0, c :: rest)
  | [] => some (0, [])

def seconds? (text : List Char) : Option (Int × List Char) := do
  let (sign, text) : Int × List Char := match text with
    | '-' :: rest => (-1, rest)
    | '+' :: rest => (1, rest)
    | _ => (1, text)
  let (hours, text) ← number? text
  let (minutes, text) ← part? ':' text
  let (seconds, text) ← part? ':' text
  some (sign * (hours * 3600 + minutes * 60 + seconds : Nat), text)

def afterName? : List Char → Option (List Char)
  | '<' :: rest =>
      match rest.dropWhile (· != '>') with
      | '>' :: rest => some rest
      | _ => none
  | text => if (text.takeWhile Char.isAlpha).length < 3 then none else some (text.dropWhile Char.isAlpha)

def rule? : List Char → Option (ChangeRule × List Char)
  | ',' :: 'M' :: text => do
      let (month, text) ← number? text
      let (week, text) ← part? '.' text
      let (weekday, text) ← part? '.' text
      match text with
      | '/' :: text => do
          let (seconds, text) ← seconds? text
          some (⟨month, week, weekday, seconds⟩, text)
      | _ => some (⟨month, week, weekday, 7200⟩, text)
  | _ => none

def summerOffset? (standard : Int) : List Char → Option (Int × List Char)
  | ',' :: rest => some (standard + 3600, ',' :: rest)
  | text => do
      let (west, rest) ← seconds? text
      some (-west, rest)

def ofText? (text : List Char) : Option Zone := do
  let (west, rest) ← seconds? (← afterName? text)
  match rest with
  | [] => some (.fixed (-west))
  | _ => do
      let (summer, rest) ← summerOffset? (-west) (← afterName? rest)
      let (toSummer, rest) ← rule? rest
      let (toStandard, rest) ← rule? rest
      if rest = [] then some (.seasonal (-west) summer toSummer toStandard) else none

example :
    ofText? "CET-1CEST,M3.5.0,M10.5.0/3".toList =
      some (.seasonal 3600 7200 ⟨3, 5, 0, 7200⟩ ⟨10, 5, 0, 10800⟩) := by decide +kernel

end AlarmClock.Zone
