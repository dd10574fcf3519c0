import AlarmClock.Text

set_option autoImplicit false

namespace AlarmClock.Toml

abbrev Reader (α : Type) := List Char → Option (α × List Char)

def isPlain (c : Char) : Bool := c == '\t' || (0x20 ≤ c.toNat && c.toNat != 0x7f)

def isSpace (c : Char) : Bool := c == ' ' || c == '\t'

def charOfHex? (digits : List Char) : Option Char :=
  let n := ofDigits 16 digits
  if digits.all (isDigitIn 16) ∧ (n < 0xD800 ∨ 0xDFFF < n ∧ n < 0x110000) then some (Char.ofNat n) else none

def escaped? : Char → Option Char
  | 'b' => some '\x08'
  | 't' => some '\t'
  | 'n' => some '\n'
  | 'f' => some '\x0c'
  | 'r' => some '\r'
  | '"' => some '"'
  | '\\' => some '\\'
  | _ => none

def consChar (c : Char) : Option (List Char × List Char) → Option (List Char × List Char)
  | some (text, rest) => some (c :: text, rest)
  | none => none

def basicString : Reader (List Char)
  | [] => none
  | '"' :: rest => some ([], rest)
  | '\\' :: 'u' :: a :: b :: c :: d :: rest => do
      consChar (← charOfHex? [a, b, c, d]) (basicString rest)
  | '\\' :: 'U' :: a :: b :: c :: d :: e :: f :: g :: h :: rest => do
      consChar (← charOfHex? [a, b, c, d, e, f, g, h]) (basicString rest)
  | '\\' :: c :: rest => do consChar (← escaped? c) (basicString rest)
  | c :: rest => if isPlain c ∧ c ≠ '\\' then consChar c (basicString rest) else none

def literalString : Reader (List Char)
  | [] => none
  | '\'' :: rest => some ([], rest)
  | c :: rest => if isPlain c then consChar c (literalString rest) else none

def isBlankLine : List Char → Bool
  | '\n' :: _ => true
  | '\r' :: '\n' :: _ => true
  | c :: rest => isSpace c && isBlankLine rest
  | [] => false

def basicLines : Bool → Reader (List Char)
  | _, [] => none
  | true, '\r' :: '\n' :: rest => basicLines true rest
  | dropping, '\n' :: rest => if dropping then basicLines true rest else consChar '\n' (basicLines false rest)
  | _, '"' :: '"' :: '"' :: '"' :: '"' :: rest => some (['"', '"'], rest)
  | _, '"' :: '"' :: '"' :: '"' :: rest => some (['"'], rest)
  | _, '"' :: '"' :: '"' :: rest => some ([], rest)
  | _, '\\' :: 'u' :: a :: b :: c :: d :: rest => do
      consChar (← charOfHex? [a, b, c, d]) (basicLines false rest)
  | _, '\\' :: 'U' :: a :: b :: c :: d :: e :: f :: g :: h :: rest => do
      consChar (← charOfHex? [a, b, c, d, e, f, g, h]) (basicLines false rest)
  | _, '\\' :: c :: rest =>
      match escaped? c with
      | some escape => consChar escape (basicLines false rest)
      | none => if isBlankLine (c :: rest) then basicLines true (c :: rest) else none
  | false, '\r' :: '\n' :: rest => consChar '\n' (basicLines false rest)
  | dropping, c :: rest =>
      if dropping ∧ isSpace c then basicLines true rest
      else if isPlain c ∧ c ≠ '\\' then consChar c (basicLines false rest)
      else none

def literalLines : Reader (List Char)
  | [] => none
  | '\'' :: '\'' :: '\'' :: '\'' :: '\'' :: rest => some (['\'', '\''], rest)
  | '\'' :: '\'' :: '\'' :: '\'' :: rest => some (['\''], rest)
  | '\'' :: '\'' :: '\'' :: rest => some ([], rest)
  | '\r' :: '\n' :: rest => consChar '\n' (literalLines rest)
  | c :: rest => if isPlain c ∨ c = '\n' then consChar c (literalLines rest) else none

def dropFirstBreak : List Char → List Char
  | '\n' :: rest => rest
  | '\r' :: '\n' :: rest => rest
  | text => text

def string? : Reader (List Char)
  | '"' :: '"' :: '"' :: rest => basicLines false (dropFirstBreak rest)
  | '"' :: rest => basicString rest
  | '\'' :: '\'' :: '\'' :: rest => literalLines (dropFirstBreak rest)
  | '\'' :: rest => literalString rest
  | _ => none

end AlarmClock.Toml
