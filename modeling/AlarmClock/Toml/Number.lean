import AlarmClock.Calendar
import AlarmClock.Toml.Strings
import AlarmClock.Toml.Value

set_option autoImplicit false

namespace AlarmClock.Toml

def moreDigits (isDigit : Char → Bool) : Reader (List Char)
  | '_' :: c :: rest => if isDigit c then consChar c (moreDigits isDigit rest) else none
  | c :: rest =>
      if isDigit c then consChar c (moreDigits isDigit rest)
      else if c = '_' then none
      else some ([], c :: rest)
  | [] => some ([], [])

def digits (isDigit : Char → Bool) : Reader (List Char)
  | c :: rest => if isDigit c then consChar c (moreDigits isDigit rest) else none
  | [] => none

def integer? (n : Int) : Option Value :=
  if -9223372036854775808 ≤ n ∧ n ≤ 9223372036854775807 then some (.integer n) else none

def basedInteger (base : Nat) (cs : List Char) : Option (Value × List Char) := do
  let (ds, rest) ← digits (isDigitIn base) cs
  some (← integer? (ofDigits base ds), rest)

def wholePart : Reader (List Char)
  | '0' :: rest => some (['0'], rest)
  | cs => digits Char.isDigit cs

def exponent : Reader (List Char)
  | '+' :: rest => digits Char.isDigit rest
  | '-' :: rest => consChar '-' (digits Char.isDigit rest)
  | rest => digits Char.isDigit rest

/-- The value `digits * 10 ^ exponent` rounds to infinity: it is at least 2^1024 - 2^970. -/
def overflows (digits : List Char) (exponent : Int) : Bool :=
  let n := ofDigits 10 digits
  let size := (toString n).length + exponent
  let limit := Nat.pow 2 1024 - Nat.pow 2 970
  if n = 0 ∨ size < 300 then false
  else if 320 < size then true
  else if 0 ≤ exponent then limit ≤ n * Nat.pow 10 exponent.toNat
  else limit * Nat.pow 10 (-exponent).toNat ≤ n

def signedExponent : List Char → Int
  | '-' :: ds => -(ofDigits 10 ds : Int)
  | ds => ofDigits 10 ds

def float? (negative : Bool) (whole fraction exp : List Char) : Option Value :=
  if !negative && overflows (whole ++ fraction) (signedExponent exp - fraction.length) then none
  else
    some (.float (String.ofList ((if negative then ['-'] else []) ++ whole ++ '.' :: fraction ++ 'e' :: exp)))

def unsigned (negative : Bool) : Reader Value
  | 'i' :: 'n' :: 'f' :: rest => some (.float (if negative then "-inf" else "inf"), rest)
  | 'n' :: 'a' :: 'n' :: rest => some (.float "nan", rest)
  | cs => do
      let (whole, rest) ← wholePart cs
      let atExponent := fun (fraction rest : List Char) => do
        let (exp, rest) ← exponent rest
        some (← float? negative whole fraction exp, rest)
      match rest with
      | '.' :: rest => do
          let (fraction, rest) ← digits Char.isDigit rest
          match rest with
          | 'e' :: rest | 'E' :: rest => atExponent fraction rest
          | rest => some (← float? negative whole fraction ['0'], rest)
      | 'e' :: rest | 'E' :: rest => atExponent [] rest
      | rest =>
          let n : Int := ofDigits 10 whole
          some (← integer? (if negative then -n else n), rest)

def number : Reader Value
  | '0' :: 'x' :: rest => basedInteger 16 rest
  | '0' :: 'o' :: rest => basedInteger 8 rest
  | '0' :: 'b' :: rest => basedInteger 2 rest
  | '+' :: rest => unsigned false rest
  | '-' :: rest => unsigned true rest
  | rest => unsigned false rest

def twoDigitsWithin (low high : Nat) : Reader Nat
  | a :: b :: rest =>
      let n := ofDigits 10 [a, b]
      if a.isDigit && b.isDigit && low ≤ n && n ≤ high then some (n, rest) else none
  | _ => none

def monthAndDay (year : Nat) (cs : List Char) : Option (List Char) := do
  let (month, rest) ← twoDigitsWithin 1 12 cs
  match rest with
  | '-' :: rest => (twoDigitsWithin 1 (Calendar.monthLength year month) rest).map (·.2)
  | _ => none

def minuteAndSecond (cs : List Char) : Option (List Char) := do
  let (_, rest) ← twoDigitsWithin 0 59 cs
  match rest with
  | ':' :: rest => do
      let (_, rest) ← twoDigitsWithin 0 60 rest
      match rest with
      | '.' :: c :: rest => if c.isDigit then some (rest.dropWhile Char.isDigit) else none
      | ['.'] => none
      | rest => some rest
  | _ => none

def beginsWithHour : List Char → Bool
  | a :: b :: ':' :: _ => (twoDigitsWithin 0 23 [a, b]).isSome
  | _ => false

def timeOfDay : List Char → Option (List Char)
  | a :: b :: ':' :: rest => do
      let _ ← twoDigitsWithin 0 23 [a, b]
      minuteAndSecond rest
  | _ => none

def offset : List Char → Option (List Char)
  | 'Z' :: rest | 'z' :: rest => some rest
  | '+' :: rest | '-' :: rest =>
      match twoDigitsWithin 0 23 rest with
      | some (_, ':' :: rest) => (twoDigitsWithin 0 59 rest).map (·.2)
      | _ => none
  | rest => some rest

def date (year : List Char) (cs : List Char) : Option (List Char) := do
  let rest ← monthAndDay (ofDigits 10 year) cs
  match rest with
  | separator :: time =>
      if (separator = 'T' ∨ separator = 't' ∨ separator = ' ') ∧ beginsWithHour time then
        offset (← timeOfDay time)
      else some rest
  | [] => some []

def dateTime (cs : List Char) : Option (Value × List Char) := do
  let rest ← match cs with
    | a :: b :: c :: d :: '-' :: rest => date [a, b, c, d] rest
    | cs => timeOfDay cs
  some (.dateTime (String.ofList (cs.take (cs.length - rest.length))), rest)

def numberOrDate (cs : List Char) : Option (Value × List Char) :=
  match cs with
  | a :: b :: c :: d :: '-' :: _ => if [a, b, c, d].all Char.isDigit then dateTime cs else number cs
  | a :: b :: ':' :: _ => if a.isDigit && b.isDigit then dateTime cs else number cs
  | _ => number cs

end AlarmClock.Toml
